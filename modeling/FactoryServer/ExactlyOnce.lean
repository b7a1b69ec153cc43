import FactoryServer.CommandInvariant

/-!
# Durable commands take effect exactly once

For every interleaving of any number of calls of `execute`, with any failure
at any await: at most one call per key commits its writes, every success
answers what that call stored, another intent is refused, and effects run in
order, at most once, after the answered commit.
-/

namespace FactoryServer.ExactlyOnce

open JsonValue AsyncProgram SqlTransaction CommandTransaction CommandReceipts CommandProtocol
  CommandInvariant

variable {ι W E : Type} [DecidableEq ι] {A : W → Type} {hash : Key → Int} {storedJson : Json → Json}
  {receipts₀ : Key → Option Receipt} {calls : ι → Call W E A}

/-- The protocol of a call; one without an identity awaits nothing. -/
def AllowedBy : Option CommandIdentity → Stage E → Await W E → Prop
  | none, _, _ => False
  | some identity, stage, op => Allowed identity stage op

/-- The stages of a call. -/
def nextBy : Option CommandIdentity → Stage E → (op : Await W E) →
    Except Thrown (op.Answer A) → Stage E
  | none, stage, _, _ => stage
  | some identity, stage, op, r => next identity stage op r

theorem follows_call (call : Call W E A) :
    Prog.Follows (AllowedBy (identityOf call.payload)) (nextBy (identityOf call.payload))
      (Outcome storedJson) Stage.start (execute storedJson call.payload call.apply) := by
  cases hid : identityOf call.payload with
  | none =>
    unfold execute
    simp only [hid]
    exact trivial
  | some identity => exact follows_execute hid call.inCommand

omit [DecidableEq ι] in
theorem inv_start (identities : ι → Option CommandIdentity) :
    Inv hash receipts₀ identities (startDatabase (W := W) receipts₀)
      (fun _ => (Stage.start : Stage E)) where
  call i := by
    cases identities i with
    | none => exact ⟨rfl, rfl, rfl⟩
    | some identity => exact ⟨rfl, rfl, rfl⟩
  exclusive := by
    rintro i j lock ⟨tx, locks, hs, -⟩
    cases hs
  kept _ _ h := h
  origin key receipt h h₀ := by
    have h : receipts₀ key = some receipt := h
    rw [h₀] at h
    cases h
  committer key i h := by cases h
  writes i h := (h rfl).elim

/-- In every reachable configuration each call is at a stage of the protocol,
and the invariant holds. -/
theorem reachable_inv {c : Config ι (Await W E) (Await.Answer A) Thrown (Option Json)
      (Database ι W E)}
    (hr : Reachable (system hash) (startConfig storedJson receipts₀ calls) c) :
    ∃ stages, Inv hash receipts₀ (fun i => identityOf (calls i).payload) c.shared stages ∧
      ∀ i, Prog.Follows (AllowedBy (identityOf (calls i).payload))
        (nextBy (identityOf (calls i).payload)) (Outcome storedJson) (stages i) (c.threads i) := by
  refine reachable_follows (I := Inv hash receipts₀ fun i => identityOf (calls i).payload)
    ?_ ?_ (inv_start _) (fun i => follows_call (calls i)) hr
  · intro db stages i op r db' h hop ha
    cases hid : identityOf (calls i).payload with
    | none => rw [hid] at hop; exact hop.elim
    | some identity =>
      rw [hid] at hop
      exact step_keeps h hid hop ha
  · exact fun db stages db' h hd => step_dies h hd

omit [DecidableEq ι] in
/-- The answer of a finished call, read off the invariant. -/
theorem answer_of_inv {db : Database ι W E} {i : ι} {identity : CommandIdentity} {stage : Stage E}
    {result : Option Json} (hst : StageInv hash receipts₀ db i identity stage)
    (hout : Outcome storedJson stage (.ok result)) (hs : succeeded result = true) :
    ∃ receipt answer, db.receipts (keyOf identity) = some receipt ∧
      receipt.fingerprint = identity.fingerprint ∧ result = some answer ∧
      (receipt.result = storedJson answer ∧ db.committer (keyOf identity) = some i ∨
        answer = deduplicated receipt.result) := by
  cases stage with
  | committed fresh receipt todo =>
    obtain ⟨-, hr, hf, -, -, hfresh⟩ := hst
    cases todo with
    | cons effect todo => exact hout.elim
    | nil =>
      cases result with
      | none => exact hout.elim
      | some answer =>
        refine ⟨receipt, answer, hr, hf, rfl, ?_⟩
        rcases hfresh with ⟨rfl, hm⟩ | ⟨rfl, -⟩
        · exact Or.inl ⟨hout.1, hm⟩
        · exact Or.inr hout
  | ended applied =>
    cases applied with
    | false => exact hout.elim
    | true => rw [show succeeded result = false from hout] at hs; cases hs
  | _ => exact hout.elim

omit [DecidableEq ι] in
/-- A call that returns has found no receipt of another intent before it started. -/
theorem receipts_of_returned {db : Database ι W E} {i : ι} {identity : CommandIdentity}
    {stage : Stage E} {result : Option Json} {receipt : Receipt}
    (hst : StageInv hash receipts₀ db i identity stage)
    (hout : Outcome storedJson stage (.ok result))
    (hr : db.receipts (keyOf identity) = some receipt)
    (h₀ : receipts₀ (keyOf identity) = some receipt) :
    receipt.fingerprint = identity.fingerprint := by
  cases stage with
  | committed fresh receipt' todo =>
    obtain ⟨-, hr', hf, -⟩ := hst
    rw [hr'] at hr
    cases hr
    exact hf
  | ended applied =>
    cases applied with
    | false => exact hout.elim
    | true => rw [hst.2.1 rfl] at h₀; cases h₀
  | _ => exact hout.elim

omit [DecidableEq ι] in
/-- Effects are run in the order they were registered, after the commit. -/
theorem effects_of_inv {db : Database ι W E} {i : ι} {identity : CommandIdentity}
    {stage : Stage E} (hst : StageInv hash receipts₀ db i identity stage) :
    db.ran i <+: db.registered i ∧ (db.ran i ≠ [] → db.commitReturned i = true ∧
      db.committer (keyOf identity) = some i) := by
  have hnone : db.ran i = [] → db.ran i <+: db.registered i ∧ (db.ran i ≠ [] →
      db.commitReturned i = true ∧ db.committer (keyOf identity) = some i) := by
    intro hran
    rw [hran]
    exact ⟨List.nil_prefix, fun hne => (hne rfl).elim⟩
  cases stage with
  | committed fresh receipt todo =>
    obtain ⟨-, -, -, hc, hreg, hfresh⟩ := hst
    refine ⟨⟨todo, hreg.symm⟩, fun hne => ⟨hc, ?_⟩⟩
    rcases hfresh with ⟨-, hm⟩ | ⟨-, hempty⟩
    · exact hm
    · rw [hempty] at hreg
      exact (hne (List.append_eq_nil_iff.mp hreg.symm).1).elim
  | start => exact hnone hst.2.2
  | connected => exact hnone hst.2.2
  | begun => exact hnone hst.2.2
  | locked => exact hnone hst.2.2
  | applying effects => exact hnone hst.2.2.2
  | stored receipt effects => exact hnone hst.2.2.2.2
  | replaying receipt => exact hnone hst.2.2.2.2
  | failing applied => exact hnone hst.2
  | ended applied => exact hnone hst.2.2
  | broken => exact hst.elim

/-- In every configuration that any number of calls reach, from any receipts of
earlier commands: committed writes for one key belong to one call, and there
are none where an earlier command has a receipt; a success answers the stored
result of its key; every new receipt is its committer's; a call of another
intent commits nothing, never succeeds, and throws when the receipt was there
before it; and effects are started in the order they were registered, each at
most once, only after the answered commit of their call. -/
theorem exactly_once {c : Config ι (Await W E) (Await.Answer A) Thrown (Option Json)
      (Database ι W E)}
    (hr : Reachable (system hash) (startConfig storedJson receipts₀ calls) c) :
    (∀ i j idᵢ idⱼ, identityOf (calls i).payload = some idᵢ →
      identityOf (calls j).payload = some idⱼ → keyOf idᵢ = keyOf idⱼ →
      c.shared.committedWrites i ≠ [] → c.shared.committedWrites j ≠ [] → i = j) ∧
    (∀ i, c.shared.committedWrites i ≠ [] → ∃ identity,
      identityOf (calls i).payload = some identity ∧ receipts₀ (keyOf identity) = none ∧
        c.shared.committer (keyOf identity) = some i) ∧
    (∀ i identity result, identityOf (calls i).payload = some identity →
      c.threads i = .ret result → succeeded result = true → ∃ receipt answer,
        c.shared.receipts (keyOf identity) = some receipt ∧
        receipt.fingerprint = identity.fingerprint ∧ result = some answer ∧
        (receipt.result = storedJson answer ∧ c.shared.committer (keyOf identity) = some i ∨
          answer = deduplicated receipt.result)) ∧
    (∀ key receipt, c.shared.receipts key = some receipt → receipts₀ key = none →
      ∃ i identity, c.shared.committer key = some i ∧
        identityOf (calls i).payload = some identity ∧ keyOf identity = key ∧
          receipt.fingerprint = identity.fingerprint) ∧
    (∀ i identity receipt, identityOf (calls i).payload = some identity →
      c.shared.receipts (keyOf identity) = some receipt →
      receipt.fingerprint ≠ identity.fingerprint →
      c.shared.committedWrites i = [] ∧
        (∀ result, c.threads i = .ret result → succeeded result = false) ∧
        (receipts₀ (keyOf identity) = some receipt → ∀ result, c.threads i ≠ .ret result)) ∧
    (∀ i, c.shared.ran i <+: c.shared.registered i ∧ (c.shared.ran i ≠ [] →
      c.shared.commitReturned i = true ∧ ∃ identity,
        identityOf (calls i).payload = some identity ∧
          c.shared.committer (keyOf identity) = some i)) := by
  obtain ⟨stages, h, hf⟩ := reachable_inv hr
  have hcall : ∀ i identity, identityOf (calls i).payload = some identity →
      StageInv hash receipts₀ c.shared i identity (stages i) := by
    intro i identity hid
    have hi := h.call i
    rw [hid] at hi
    exact hi
  have hout : ∀ i result, c.threads i = .ret result →
      Outcome storedJson (stages i) (.ok result) := by
    intro i result hret
    have hi := hf i
    rw [hret] at hi
    exact hi
  have hsuccess := fun i identity result hid hret hs =>
    answer_of_inv (hcall i identity hid) (hout i result hret) hs
  have hwrites := h.writes
  refine ⟨?_, ?_, hsuccess, h.origin, ?_, ?_⟩
  · intro i j idᵢ idⱼ hi hj hkey hwi hwj
    obtain ⟨id₁, h₁, hm₁⟩ := hwrites i hwi
    obtain ⟨id₂, h₂, hm₂⟩ := hwrites j hwj
    cases h₁.symm.trans hi
    cases h₂.symm.trans hj
    rw [hkey, hm₂] at hm₁
    exact (Option.some.inj hm₁).symm
  · intro i hwi
    obtain ⟨identity, hid, hm⟩ := hwrites i hwi
    exact ⟨identity, hid, (h.committer _ _ hm).1, hm⟩
  · intro i identity receipt hid hrec hne
    refine ⟨?_, fun result hret => ?_, fun h₀ result hret => ?_⟩
    · by_contra hw
      obtain ⟨identity', hid', hm⟩ := hwrites i hw
      cases hid'.symm.trans hid
      obtain ⟨j, identityⱼ, hmⱼ, hidⱼ, -, hfp⟩ := h.origin _ _ hrec (h.committer _ _ hm).1
      cases hm.symm.trans hmⱼ
      cases hidⱼ.symm.trans hid
      exact hne hfp
    · cases hs : succeeded result with
      | false => rfl
      | true =>
        obtain ⟨receipt', answer, hrec', hfp, -⟩ := hsuccess i identity result hid hret hs
        cases hrec'.symm.trans hrec
        exact (hne hfp).elim
    · exact hne (receipts_of_returned (hcall i identity hid) (hout i result hret) hrec h₀)
  · intro i
    cases hid : identityOf (calls i).payload with
    | none =>
      have hi := h.call i
      rw [hid] at hi
      rw [hi.2.2]
      exact ⟨List.nil_prefix, fun hne => (hne rfl).elim⟩
    | some identity =>
      obtain ⟨hpre, hrun⟩ := effects_of_inv (hcall i identity hid)
      exact ⟨hpre, fun hne => ⟨(hrun hne).1, identity, rfl, (hrun hne).2⟩⟩

/-- A payload with a valid identity. -/
def samplePayload : Json :=
  .obj [("commandId", .str "command-1"), ("commandActor", .str "user-1"),
    ("commandFingerprint", .str
      "0123456789abcdef0123456789abcdef0123456789abcdef0123456789abcdef")]

/-- A command that writes once, defers one effect and succeeds. -/
def sampleCall : Call String String (fun _ => Unit) where
  payload := samplePayload
  apply := (query .command (.data "upsert")).bind fun _ =>
    (afterCommandCommit true "evict").bind fun _ =>
      .ret (some (.obj [("success", .bool true)]))
  inCommand := ⟨trivial, fun r => by
    cases r with
    | error e => trivial
    | ok _ => exact ⟨trivial, fun r => by cases r <;> trivial⟩⟩

/-- The same call alone, from an empty table of receipts. -/
def sampleStart : Config Unit (Await String String) (Await.Answer fun _ => Unit) Thrown
    (Option Json) (Database Unit String String) :=
  startConfig id (fun _ => none) fun _ => sampleCall

/-- A statement that the server executes and answers. -/
theorem answered {db db₁ db' : Database Unit String String} (sql : Sql String)
    {a : sql.Answer fun _ => Unit} (hx : Executes (fun _ => 0) db () sql a db₁)
    (hd : db' = db₁.acknowledge () sql) :
    answers (fun _ => 0) db () (.query .command sql) (.ok a) db' :=
  Or.inr (Or.inr (Or.inr (Or.inr ⟨a, db₁, rfl, hx, hd⟩)))

/-- With every await answered, the call commits its write and runs its effect. -/
theorem sampleStart_reaches : ∃ c, Reachable (system fun _ => 0) sampleStart c ∧
    c.shared.committedWrites () = ["upsert"] ∧ c.shared.ran () = ["evict"] := by
  refine reaches_answer () (.ok ()) rfl ⟨rfl, Or.inr ⟨rfl, rfl⟩⟩ ?_
  refine reaches_answer () (.ok ()) rfl (answered .begin rfl rfl) ?_
  refine reaches_answer () (.ok ()) rfl
    (answered (.lock "user-1" "command-1") ⟨rfl, fun _ _ _ _ _ => rfl, rfl⟩ rfl) ?_
  refine reaches_answer () (.ok none) rfl
    (answered (.selectReceipt "user-1" "command-1") ⟨rfl, rfl, rfl⟩ rfl) ?_
  refine reaches_answer () (.ok ()) rfl (answered (.data "upsert") ⟨rfl, rfl⟩ rfl) ?_
  refine reaches_answer () (.ok ()) rfl ⟨rfl, rfl⟩ ?_
  refine reaches_answer () (.ok ()) rfl
    (answered (.insertReceipt "user-1" "command-1" _) ⟨rfl, rfl, rfl⟩ rfl) ?_
  refine reaches_answer () (.ok ()) rfl (answered .commit rfl rfl) ?_
  refine reaches_answer () (.ok ()) rfl ⟨fun _ _ h => (by cases h), rfl, rfl⟩ ?_
  refine reaches_answer () (.ok ()) rfl rfl ?_
  exact ⟨_, .refl, rfl, rfl⟩

theorem exactly_once_sample : ∃ c : Config Unit (Await String String)
    (Await.Answer fun _ => Unit) Thrown (Option Json) (Database Unit String String),
    c.shared.committedWrites () = ["upsert"] ∧ c.shared.ran () = ["evict"] ∧
      c.shared.ran () <+: c.shared.registered () ∧ c.shared.commitReturned () = true := by
  obtain ⟨c, hr, hw, hran⟩ := sampleStart_reaches
  have h := (exactly_once hr).2.2.2.2.2 ()
  exact ⟨c, hw, hran, h.1, (h.2 (by rw [hran]; decide)).1⟩

end FactoryServer.ExactlyOnce
