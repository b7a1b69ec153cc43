import FactoryServer.ExecutionQueue
import FactoryServer.JsonText
import FactoryServer.SortedJson

/-!
# What a command fingerprint identifies

A durable command is stored under the hash of its intent: its tournaments, its methods and
`rollbackOnError`, with the keys of every object sorted. The hash resolves the three with
`??` and omits absent methods, where the queue resolves tournaments with `||`, defaults the
methods to an empty list and reads `rollbackOnError` as a flag. The two agree on plain
payloads, and every other payload has a plain one with its intent and another hash.
-/

namespace FactoryServer.CommandFingerprints

open JsonValue ExecutionQueue JsonText SortedJson

/-! ## The hash of a command -/

/-- `payload.tournamentIds ?? [payload.tournamentId].filter(Boolean)`. -/
def hashedTournaments (payload : Json) : Json :=
  let given := (payload.field? "tournamentId").toList
  (coalesce (payload.field? "tournamentIds")
    (some (.arr (given.filter fun id => truthy (some id))))).getD .null

/-- `payload.rollbackOnError ?? false`. -/
def hashedRollback (payload : Json) : Json :=
  (coalesce (payload.field? "rollbackOnError") (some (.bool false))).getD .null

/-- The properties of the hashed object; `JSON.stringify` omits absent methods. -/
def intentFields (payload : Json) : List (String × Json) :=
  ("tournamentIds", hashedTournaments payload) ::
    ((payload.field? "methods").toList.map fun methods => ("methods", methods)) ++
    [("rollbackOnError", hashedRollback payload)]

/-- `commandFingerprint`; there is none for `null`, which has no properties to read. -/
def commandFingerprint (sha256 : List Char → String) (payload : Json) : Option String :=
  match payload with
  | .null => none
  | payload => some (sha256 (stringify (sorted (.obj (intentFields payload)))))

/-! ## The intent of a command -/

/-- `const { methods = [] } = payload ?? {}`. -/
def queuedMethods (payload : Json) : Json := (payload.field? "methods").getD (.arr [])

/-- `executionQueue` does the same for both payloads. -/
structure SameIntent (p q : Json) : Prop where
  /-- The same tournaments. -/
  tournaments : Reordered (queueTournamentIds p) (queueTournamentIds q)
  /-- The same methods up to the order of keys. -/
  methods : Reordered (queuedMethods p) (queuedMethods q)
  /-- The same flag. -/
  rollback : truthy (p.field? "rollbackOnError") = truthy (q.field? "rollbackOnError")

/-- The payloads that the hash reads as the queue does. -/
structure Plain (payload : Json) : Prop where
  /-- `tournamentIds` is left out, or it is a value that `||` takes. -/
  tournamentIds : nullish (payload.field? "tournamentIds") = true ∨
    truthy (payload.field? "tournamentIds") = true
  /-- The methods are given. -/
  methods : (payload.field? "methods").isSome = true
  /-- `rollbackOnError` is left out or a boolean. -/
  rollback : nullish (payload.field? "rollbackOnError") = true ∨
    ∃ flag, payload.field? "rollbackOnError" = some (.bool flag)

/-- A payload with the intent of another, as the queue reads it. -/
def plainForm (payload : Json) : Json :=
  .obj [("tournamentIds", queueTournamentIds payload), ("methods", queuedMethods payload),
    ("rollbackOnError", .bool (truthy (payload.field? "rollbackOnError")))]

/-- The properties that the intent of a command is read from. -/
def intentKeys : List String := ["tournamentIds", "tournamentId", "methods", "rollbackOnError"]

/-! ## Values up to the order of keys -/

/-- A property of a value with distinct keys has distinct keys. -/
theorem distinct_field {value found : Json} {key : String} (h : Distinct value)
    (hfield : value.field? key = some found) : Distinct found := by
  obtain ⟨fields, rfl⟩ := Json.obj_of_field hfield
  rw [Distinct] at h
  exact (distinctFields_iff fields).mp h.2 _ ((field_eq_some_iff h.1 key found).mp hfield)

/-- The order of keys does not make a value falsy. -/
theorem truthy_reordered {value other : Json} (h : Reordered value other) :
    truthy (some value) = truthy (some other) := by
  induction h with
  | fields hperm => rfl
  | field front rest key h ih => rfl
  | item front rest h ih => rfl
  | refl value => rfl
  | symm h ih => exact ih.symm
  | trans h h' ih ih' => exact ih.trans ih'

/-- A boolean has no keys. -/
theorem reordered_bool_iff {value : Json} {flag : Bool} :
    Reordered value (.bool flag) ↔ value = .bool flag := by
  constructor
  · intro h
    have hsorted : sorted (.bool flag) = sorted value := (sorted_of_reordered h.symm).2 trivial
    rw [sorted] at hsorted
    cases value with
    | bool b => rw [sorted] at hsorted; exact hsorted.symm
    | null => rw [sorted] at hsorted; cases hsorted
    | num n => rw [sorted] at hsorted; cases hsorted
    | str s => rw [sorted] at hsorted; cases hsorted
    | arr items => rw [sorted] at hsorted; cases hsorted
    | obj fields => rw [sorted] at hsorted; cases hsorted
  · rintro rfl
    exact .refl _

/-- Two sorted properties are the same when both are absent or equal up to the order of keys. -/
theorem map_sorted_iff {value other : Option Json} (h : ∀ found ∈ value, Distinct found) :
    value.map sorted = other.map sorted ↔ Option.Rel Reordered value other := by
  cases value with
  | none =>
    cases other with
    | none => exact ⟨fun _ => .none, fun _ => rfl⟩
    | some o => exact iff_of_false nofun nofun
  | some v =>
    cases other with
    | none => exact iff_of_false nofun nofun
    | some o =>
      rw [Option.map_some, Option.map_some, Option.some_inj, sorted_eq_iff (h v rfl)]
      exact ⟨.some, fun hrel => by cases hrel with | some hsame => exact hsame⟩

/-! ## The hashed object -/

/-- The hashed object has each key once. -/
theorem intentFields_nodup (payload : Json) : ((intentFields payload).map Prod.fst).Nodup := by
  rw [intentFields]
  cases payload.field? "methods" with
  | none => simp
  | some methods => simp

/-- Its tournaments. -/
theorem intent_tournamentIds (payload : Json) :
    (Json.obj (intentFields payload)).field? "tournamentIds" =
      some (hashedTournaments payload) := by
  simp [Json.field?, intentFields]

/-- Its methods. -/
theorem intent_methods (payload : Json) :
    (Json.obj (intentFields payload)).field? "methods" = payload.field? "methods" := by
  unfold intentFields
  cases payload.field? "methods" with
  | none => simp [Json.field?]
  | some methods => simp [Json.field?]

/-- Its flag. -/
theorem intent_rollback (payload : Json) :
    (Json.obj (intentFields payload)).field? "rollbackOnError" = some (hashedRollback payload) := by
  unfold intentFields
  cases payload.field? "methods" with
  | none => simp [Json.field?]
  | some methods => simp [Json.field?]

/-- The hashed tournaments of a payload with distinct keys have distinct keys. -/
theorem distinct_hashedTournaments {payload : Json} (h : Distinct payload) :
    Distinct (hashedTournaments payload) := by
  have hids : Distinct (.arr ((payload.field? "tournamentId").toList.filter
      fun id => truthy (some id))) := by
    rw [Distinct, distinctItems_iff]
    intro id hid
    exact distinct_field h (Option.mem_toList.mp (List.mem_of_mem_filter hid))
  rw [hashedTournaments, coalesce]
  split
  · exact hids
  · cases hfield : payload.field? "tournamentIds" with
    | none => trivial
    | some found => exact distinct_field h hfield

/-- So has the hashed flag. -/
theorem distinct_hashedRollback {payload : Json} (h : Distinct payload) :
    Distinct (hashedRollback payload) := by
  rw [hashedRollback, coalesce]
  split
  · trivial
  · cases hfield : payload.field? "rollbackOnError" with
    | none => trivial
    | some found => exact distinct_field h hfield

/-- The hashed objects are one up to the order of keys when their properties are. -/
theorem sorted_intent_iff {p q : Json} (hp : Distinct p) :
    sorted (.obj (intentFields p)) = sorted (.obj (intentFields q)) ↔
      Reordered (hashedTournaments p) (hashedTournaments q) ∧
        Option.Rel Reordered (p.field? "methods") (q.field? "methods") ∧
        Reordered (hashedRollback p) (hashedRollback q) := by
  have hmethods : ∀ found ∈ p.field? "methods", Distinct found :=
    fun found hfound => distinct_field hp hfound
  have hfield : ∀ key, sorted (.obj (intentFields p)) = sorted (.obj (intentFields q)) →
      ((Json.obj (intentFields p)).field? key).map sorted =
        ((Json.obj (intentFields q)).field? key).map sorted := by
    intro key hsame
    rw [← field_sorted (intentFields_nodup p), hsame, field_sorted (intentFields_nodup q)]
  rw [← sorted_eq_iff (distinct_hashedTournaments hp),
    ← sorted_eq_iff (distinct_hashedRollback hp), ← map_sorted_iff hmethods]
  constructor
  · intro hsame
    have ht := hfield "tournamentIds" hsame
    have hm := hfield "methods" hsame
    have hr := hfield "rollbackOnError" hsame
    rw [intent_tournamentIds, intent_tournamentIds] at ht
    rw [intent_methods, intent_methods] at hm
    rw [intent_rollback, intent_rollback] at hr
    exact ⟨Option.some.inj ht, hm, Option.some.inj hr⟩
  · rintro ⟨ht, hm, hr⟩
    rw [sorted, sorted, sortedFields_eq, sortedFields_eq, intentFields, intentFields]
    cases hmp : p.field? "methods" with
    | none =>
      cases hmq : q.field? "methods" with
      | none => simp [ht, hr]
      | some other => rw [hmp, hmq] at hm; cases hm
    | some methods =>
      cases hmq : q.field? "methods" with
      | none => rw [hmp, hmq] at hm; cases hm
      | some other =>
        rw [hmp, hmq] at hm
        have hsame : sorted methods = sorted other := Option.some.inj hm
        simp [ht, hr, hsame]

/-! ## The hash and the queue -/

/-- The tournaments of the queue are never falsy: an empty list is the last resort. -/
theorem truthy_queueTournamentIds (payload : Json) :
    truthy (some (queueTournamentIds payload)) = true := by
  rw [queueTournamentIds]
  cases hids : truthy (payload.field? "tournamentIds") with
  | true =>
    rw [orElse, if_pos hids]
    cases hfield : payload.field? "tournamentIds" with
    | none => rw [hfield] at hids; cases hids
    | some ids => rw [hfield] at hids; exact hids
  | false =>
    cases hid : truthy (payload.field? "tournamentId") with
    | true => simp [orElse, hids]
    | false => simp [orElse, hids, hid]

/-- Tournaments that are left out, or that `||` takes, are hashed as the queue resolves them. -/
theorem hashedTournaments_eq {payload : Json}
    (h : nullish (payload.field? "tournamentIds") = true ∨
      truthy (payload.field? "tournamentIds") = true) :
    hashedTournaments payload = queueTournamentIds payload := by
  rw [hashedTournaments, queueTournamentIds]
  obtain hnullish | htruthy := h
  · rw [coalesce, if_pos hnullish, orElse_of_nullish hnullish]
    cases hid : payload.field? "tournamentId" with
    | none => simp [orElse]
    | some id =>
      cases htid : truthy (some id) with
      | true => simp [orElse, htid]
      | false => simp [orElse, htid]
  · rw [coalesce_eq_orElse_of_truthy htruthy]

/-- Other tournaments are hashed as they are. -/
theorem hashedTournaments_falsy {payload : Json}
    (hnullish : ¬ nullish (payload.field? "tournamentIds") = true)
    (htruthy : ¬ truthy (payload.field? "tournamentIds") = true) :
    truthy (some (hashedTournaments payload)) = false := by
  rw [hashedTournaments, coalesce, if_neg hnullish]
  cases hids : payload.field? "tournamentIds" with
  | none => rfl
  | some ids =>
    rw [hids] at htruthy
    exact Bool.eq_false_iff.mpr htruthy

/-- A flag that is left out or boolean is hashed as the queue reads it. -/
theorem hashedRollback_eq {payload : Json}
    (h : nullish (payload.field? "rollbackOnError") = true ∨
      ∃ flag, payload.field? "rollbackOnError" = some (.bool flag)) :
    hashedRollback payload = .bool (truthy (payload.field? "rollbackOnError")) := by
  rw [hashedRollback]
  obtain hnullish | ⟨flag, hflag⟩ := h
  · have hfalsy : truthy (payload.field? "rollbackOnError") = false := by
      refine Bool.eq_false_iff.mpr fun htruthy => ?_
      rw [nullish_false_of_truthy htruthy] at hnullish
      cases hnullish
    rw [coalesce, if_pos hnullish, hfalsy]
    rfl
  · rw [hflag]
    rfl

/-- A flag that is hashed as a boolean is left out or a boolean. -/
theorem rollback_of_hashed {payload : Json} {flag : Bool}
    (h : hashedRollback payload = .bool flag) :
    nullish (payload.field? "rollbackOnError") = true ∨
      ∃ b, payload.field? "rollbackOnError" = some (.bool b) := by
  cases hfield : payload.field? "rollbackOnError" with
  | none => exact .inl rfl
  | some value =>
    rw [hashedRollback, hfield] at h
    cases value with
    | bool b => exact .inr ⟨b, rfl⟩
    | null => exact .inl rfl
    | num n => cases h
    | str t => cases h
    | arr items => cases h
    | obj fields => cases h

/-- The fingerprints of two payloads that can be read. -/
theorem commandFingerprint_eq_iff {sha256 : List Char → String}
    (hsha : Function.Injective sha256) {p q : Json} (hp : Distinct p) (hpnull : p ≠ .null)
    (hqnull : q ≠ .null) :
    commandFingerprint sha256 p = commandFingerprint sha256 q ↔
      Reordered (hashedTournaments p) (hashedTournaments q) ∧
        Option.Rel Reordered (p.field? "methods") (q.field? "methods") ∧
        Reordered (hashedRollback p) (hashedRollback q) := by
  have hread : ∀ payload : Json, payload ≠ .null → commandFingerprint sha256 payload =
      some (sha256 (stringify (sorted (.obj (intentFields payload))))) := by
    intro payload hnull
    cases payload with
    | null => exact absurd rfl hnull
    | bool b => rfl
    | num n => rfl
    | str t => rfl
    | arr items => rfl
    | obj fields => rfl
  rw [hread p hpnull, hread q hqnull, Option.some_inj, hsha.eq_iff, stringify_injective.eq_iff,
    sorted_intent_iff hp]

/-- A payload with methods has properties. -/
theorem Plain.ne_null {payload : Json} (h : Plain payload) : payload ≠ .null := by
  rintro rfl
  exact absurd h.methods (by decide)

/-- Given methods are the same up to the order of keys when the queue's are. -/
theorem methods_iff {p q : Json} (hp : (p.field? "methods").isSome = true)
    (hq : (q.field? "methods").isSome = true) :
    Option.Rel Reordered (p.field? "methods") (q.field? "methods") ↔
      Reordered (queuedMethods p) (queuedMethods q) := by
  obtain ⟨methods, hmethods⟩ := Option.isSome_iff_exists.mp hp
  obtain ⟨others, hothers⟩ := Option.isSome_iff_exists.mp hq
  rw [queuedMethods, queuedMethods, hmethods, hothers]
  exact ⟨fun hrel => by cases hrel with | some hsame => exact hsame, .some⟩

/-- The fingerprints of two plain payloads are equal exactly when their intents are. -/
theorem plain_fingerprints {sha256 : List Char → String} (hsha : Function.Injective sha256)
    {p q : Json} (hdistinct : Distinct p) (hp : Plain p) (hq : Plain q) :
    commandFingerprint sha256 p = commandFingerprint sha256 q ↔ SameIntent p q := by
  rw [commandFingerprint_eq_iff hsha hdistinct hp.ne_null hq.ne_null,
    hashedTournaments_eq hp.tournamentIds, hashedTournaments_eq hq.tournamentIds,
    hashedRollback_eq hp.rollback, hashedRollback_eq hq.rollback, methods_iff hp.methods hq.methods,
    reordered_bool_iff, Json.bool.injEq]
  exact ⟨fun ⟨ht, hm, hr⟩ => ⟨ht, hm, hr⟩, fun h => ⟨h.tournaments, h.methods, h.rollback⟩⟩

/-! ## The plain form of a payload -/

/-- The plain form is plain. -/
theorem plain_plainForm (payload : Json) : Plain (plainForm payload) := by
  refine ⟨.inr ?_, ?_, .inr ⟨truthy (payload.field? "rollbackOnError"), ?_⟩⟩
  · simp [plainForm, Json.field?, truthy_queueTournamentIds payload]
  · simp [plainForm, Json.field?]
  · simp [plainForm, Json.field?]

/-- The plain form has the intent of the payload. -/
theorem sameIntent_plainForm (payload : Json) : SameIntent payload (plainForm payload) := by
  have htruthy := truthy_queueTournamentIds payload
  constructor
  · have hsame : queueTournamentIds (plainForm payload) = queueTournamentIds payload := by
      rw [queueTournamentIds]
      simp [plainForm, Json.field?, orElse, htruthy]
    rw [hsame]
    exact .refl _
  · have hsame : queuedMethods (plainForm payload) = queuedMethods payload := by
      simp [queuedMethods, plainForm, Json.field?]
    rw [hsame]
    exact .refl _
  · simp [plainForm, Json.field?, truthy]

/-- The plain form of a payload with distinct keys has distinct keys. -/
theorem distinct_plainForm {payload : Json} (h : Distinct payload) :
    Distinct (plainForm payload) := by
  have hids : Distinct (queueTournamentIds payload) := by
    rw [queueTournamentIds, orElse, orElse]
    split
    · cases hfield : payload.field? "tournamentIds" with
      | none => trivial
      | some ids => exact distinct_field h hfield
    · cases hid : payload.field? "tournamentId" with
      | none => exact trivial
      | some id =>
        have hdistinct := distinct_field h hid
        cases htid : truthy (some id) with
        | true => simpa [htid, Distinct, DistinctItems] using hdistinct
        | false => simp [htid, Distinct, DistinctItems]
  have hmethods : Distinct (queuedMethods payload) := by
    rw [queuedMethods]
    cases hfield : payload.field? "methods" with
    | none => exact trivial
    | some methods => exact distinct_field h hfield
  exact ⟨by simp, hids, hmethods, trivial, trivial⟩

/-- A payload whose plain form has its fingerprint is plain. -/
theorem plain_of_fingerprint {sha256 : List Char → String} (hsha : Function.Injective sha256)
    {payload : Json} (hdistinct : Distinct payload)
    (h : commandFingerprint sha256 payload = commandFingerprint sha256 (plainForm payload)) :
    Plain payload := by
  have hform := plain_plainForm payload
  have hnull : payload ≠ .null := by
    rintro rfl
    cases h
  obtain ⟨ht, hm, hr⟩ := (commandFingerprint_eq_iff hsha hdistinct hnull hform.ne_null).mp h
  refine ⟨?_, ?_, ?_⟩
  · by_contra hneither
    rw [not_or] at hneither
    have hfalsy := hashedTournaments_falsy hneither.1 hneither.2
    rw [truthy_reordered ht, hashedTournaments_eq hform.tournamentIds,
      truthy_queueTournamentIds] at hfalsy
    cases hfalsy
  · cases hfield : payload.field? "methods" with
    | some methods => rfl
    | none =>
      rw [hfield] at hm
      have hsome := hform.methods
      cases hq : (plainForm payload).field? "methods" with
      | none => rw [hq] at hsome; cases hsome
      | some others => rw [hq] at hm; cases hm
  · rw [hashedRollback_eq hform.rollback, reordered_bool_iff] at hr
    exact rollback_of_hashed hr

/-- The properties other than those of the intent do not change the fingerprint. -/
theorem commandFingerprint_setField (sha256 : List Char → String)
    (fields : List (String × Json)) {key : String} (h : key ∉ intentKeys) (value : Json) :
    commandFingerprint sha256 (.obj (setField fields key value)) =
      commandFingerprint sha256 (.obj fields) := by
  have hfield : ∀ name ∈ intentKeys, (Json.obj (setField fields key value)).field? name =
      (Json.obj fields).field? name := by
    intro name hname
    have hne : name ≠ key := fun heq => h (heq ▸ hname)
    rw [Json.field?, Json.field?, find_setField_of_ne hne value fields]
  simp only [commandFingerprint, intentFields, hashedTournaments, hashedRollback,
    hfield "tournamentIds" (by decide), hfield "tournamentId" (by decide),
    hfield "methods" (by decide), hfield "rollbackOnError" (by decide)]

/-- **The fingerprint of a payload identifies its intent among plain payloads exactly when it is
plain itself; no other property enters it.** -/
theorem fingerprint_identifies (sha256 : List Char → String) (hsha : Function.Injective sha256)
    (payload : Json) (hdistinct : Distinct payload) :
    ((∀ other, Distinct other → Plain other →
      (commandFingerprint sha256 payload = commandFingerprint sha256 other ↔
        SameIntent payload other)) ↔ Plain payload) ∧
      ∀ fields, payload = .obj fields → ∀ key ∉ intentKeys, ∀ value,
        commandFingerprint sha256 (.obj (setField fields key value)) =
          commandFingerprint sha256 payload := by
  refine ⟨⟨fun h => ?_, fun hplain other _ hother => ?_⟩, ?_⟩
  · have hsame := h (plainForm payload) (distinct_plainForm hdistinct) (plain_plainForm payload)
    exact plain_of_fingerprint hsha hdistinct (hsame.mpr (sameIntent_plainForm payload))
  · exact plain_fingerprints hsha hdistinct hplain hother
  · rintro fields rfl key hkey value
    exact commandFingerprint_setField sha256 fields hkey value

/-! ## Payloads -/

/-- A command on one tournament, with no methods. -/
def command (flag : Json) : Json :=
  .obj [("tournamentIds", strings ["t1"]), ("methods", .arr []), ("rollbackOnError", flag)]

/-- A command that leaves the list of tournaments empty by a falsy value. -/
def emptyIds (tournamentId : String) : Json :=
  .obj [("tournamentIds", .str ""), ("tournamentId", .str tournamentId), ("methods", .arr [])]

/-- The same command with its tournament named by its id and no flag. -/
def shortCommand : Json := .obj [("methods", .arr []), ("tournamentId", .str "t1")]

/-- The two forms of the command have one fingerprint. -/
theorem command_identified : commandFingerprint String.ofList (command (.bool false)) =
    commandFingerprint String.ofList shortCommand :=
  ((fingerprint_identifies String.ofList (fun _ _ => String.ofList_injective)
    (command (.bool false))
    ⟨by decide, by simp [strings, DistinctFields, Distinct, DistinctItems]⟩).1.mpr
    ⟨.inr rfl, rfl, .inr ⟨false, rfl⟩⟩ shortCommand
    ⟨by decide, by simp [DistinctFields, Distinct, DistinctItems]⟩
    ⟨.inl rfl, rfl, .inl rfl⟩).mpr ⟨.refl _, .refl _, rfl⟩

/-- Two commands on different tournaments have one fingerprint, and two with one intent have
different ones. -/
theorem other_tournament_matched :
    commandFingerprint String.ofList (emptyIds "t1") =
        commandFingerprint String.ofList (emptyIds "t2") ∧
      ¬ SameIntent (emptyIds "t1") (emptyIds "t2") ∧
      SameIntent (command (.num 1)) (command (.bool true)) ∧
      commandFingerprint String.ofList (command (.num 1)) ≠
        commandFingerprint String.ofList (command (.bool true)) := by
  refine ⟨rfl, fun h => ?_, ⟨.refl _, .refl _, rfl⟩, fun h => ?_⟩
  · have htournaments : Reordered (strings ["t1"]) (strings ["t2"]) := h.tournaments
    have hsorted := (sorted_eq_iff (by simp [strings, Distinct, DistinctItems])).mpr htournaments
    simp [strings, sorted, sortedItems] at hsorted
  · have hdistinct : Distinct (command (.num 1)) :=
      ⟨by decide, by simp [strings, DistinctFields, Distinct, DistinctItems]⟩
    have hinjective : Function.Injective String.ofList := fun _ _ => String.ofList_injective
    have hparts := (commandFingerprint_eq_iff hinjective hdistinct (by simp [command])
      (by simp [command])).mp h
    have hflag : Reordered (.num 1) (.bool true) := hparts.2.2
    cases reordered_bool_iff.mp hflag

end FactoryServer.CommandFingerprints
