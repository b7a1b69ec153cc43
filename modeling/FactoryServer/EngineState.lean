import FactoryServer.GuardedRuns
import FactoryServer.InsertionMaps
import FactoryServer.JsonValue
import FactoryServer.PrimaryKeys

/-!
# The state of an engine instance

Each request runs the competition engine on an instance state of its own: the loaded
tournament records, the one that is active, and the buffer of notices that a mutation
leaves for its subscribers.
-/

namespace FactoryServer.EngineState

open JsonValue InsertionMaps GuardedRuns

/-! ## Notices -/

/-- An entry of the notice buffer. -/
structure Notice where
  /-- The topic its subscribers have named. -/
  topic : String
  /-- What they are told. -/
  payload : Json
  /-- What it is about, so that a later notice can take its place. -/
  key : Option String
  deriving Repr

/-- `key` or `topic` as the condition of an `if`. -/
def isGiven (text : Option String) : Bool := text.any (· ≠ "")

/-- A notice of the same topic about the same key. -/
def supersedes (topic : String) (key : Option String) (notice : Notice) : Bool :=
  notice.topic == topic && notice.key == key

/-- `addNotice` of a topic with a subscriber: what it supersedes goes, and leaves its
identity to the payload by `globalState.preserveNoticeIdentity`. -/
def addNotice (preserveNoticeIdentity : Json → Json → Json) (notices : List Notice)
    (topic : String) (payload : Json) (key : Option String) : List Notice :=
  if isGiven key then
    let superseded := notices.filter (supersedes topic key)
    let outgoing := superseded.foldl (fun outgoing notice =>
      preserveNoticeIdentity outgoing notice.payload) payload
    notices.filter (fun notice => !supersedes topic key notice) ++ [⟨topic, outgoing, key⟩]
  else notices ++ [⟨topic, payload, key⟩]

/-- `(!topic || notice.topic === topic) && notice.key !== key`. -/
def isRetained (key topic : Option String) (notice : Notice) : Bool :=
  (!isGiven topic || some notice.topic == topic) && notice.key != key

/-- `deleteNotice({ key, topic })`. -/
def deleteNotice (notices : List Notice) (key topic : Option String) : List Notice :=
  notices.filter (isRetained key topic)

/-- Two notices of one topic about one key. -/
def Rivals (a b : Notice) : Prop := isGiven a.key = true ∧ a.topic = b.topic ∧ a.key = b.key

/-- No two notices of the buffer are of one topic about one key. -/
def KeyedOnce (notices : List Notice) : Prop := notices.Pairwise fun a b => ¬ Rivals a b

/-- An added notice comes last, and nothing goes but what it supersedes. -/
theorem addNotice_spec (preserveNoticeIdentity : Json → Json → Json) (notices : List Notice)
    (topic : String) (payload : Json) (key : Option String) :
    ∃ outgoing, addNotice preserveNoticeIdentity notices topic payload key =
      notices.filter (fun notice => !(isGiven key && supersedes topic key notice)) ++
        [⟨topic, outgoing, key⟩] := by
  unfold addNotice
  by_cases hkey : isGiven key = true
  · rw [if_pos hkey]
    simp only [hkey, Bool.true_and]
    exact ⟨_, rfl⟩
  · exact ⟨payload, by simp [hkey]⟩

/-- A notice that is added leaves no rival of it. -/
theorem keyedOnce_addNotice (preserveNoticeIdentity : Json → Json → Json) {notices : List Notice}
    (hn : KeyedOnce notices) (topic : String) (payload : Json) (key : Option String) :
    KeyedOnce (addNotice preserveNoticeIdentity notices topic payload key) := by
  obtain ⟨outgoing, heq⟩ := addNotice_spec preserveNoticeIdentity notices topic payload key
  rw [heq]
  refine List.pairwise_append.mpr ⟨hn.filter _, List.pairwise_singleton _ _, ?_⟩
  rintro notice hnotice added hadded ⟨hgiven, htopic, hsame⟩
  rw [List.mem_singleton.mp hadded] at htopic hsame
  have hstays := (List.mem_filter.mp hnotice).2
  rw [hsame] at hgiven
  simp [hgiven, supersedes, htopic, hsame] at hstays

/-- The notice is about the key, and of the topic when one is given. -/
def isNamed (key topic : Option String) (notice : Notice) : Bool :=
  key.isSome && notice.key == key && topic.all (· == notice.topic)

/-- The buffer loses exactly the named notices. -/
def RemovesExactly (notices : List Notice) (key topic : Option String) : Prop :=
  deleteNotice notices key topic = notices.filter fun notice => !isNamed key topic notice

/-- Two filters agree on a list exactly when they agree on its elements. -/
theorem filter_eq_filter_iff {A : Type} {p q : A → Bool} {items : List A} :
    items.filter p = items.filter q ↔ ∀ item ∈ items, (p item = true ↔ q item = true) := by
  constructor
  · intro h item hitem
    have hmem : item ∈ items.filter p ↔ item ∈ items.filter q := by rw [h]
    simpa only [List.mem_filter, hitem, true_and] using hmem
  · intro h
    exact List.filter_congr fun item hitem => Bool.eq_iff_iff.mpr (h item hitem)

/-- What stays is of the given topic, and not about the key. -/
theorem isRetained_iff {key topic : Option String} {notice : Notice} :
    isRetained key topic notice = true ↔
      (∀ t, topic = some t → t ≠ "" → notice.topic = t) ∧ notice.key ≠ key := by
  unfold isRetained isGiven
  cases topic with
  | none => simp
  | some t =>
    by_cases ht : t = ""
    · simp [ht]
    · simp [ht]

/-- What is named is about the key, and of the given topic. -/
theorem isNamed_iff {key topic : Option String} {notice : Notice} :
    isNamed key topic notice = true ↔
      key ≠ none ∧ notice.key = key ∧ ∀ t, topic = some t → notice.topic = t := by
  unfold isNamed
  cases key with
  | none => simp
  | some k =>
    cases topic with
    | none => simp
    | some t => simp [eq_comm (a := t)]

/-- The buffer loses exactly the named notices when no other topic is in it, an empty topic
is the topic of everything about the key, and without a key no notice is without one. -/
theorem removes_exactly_iff (notices : List Notice) (key topic : Option String) :
    RemovesExactly notices key topic ↔
      (∀ t, topic = some t → t ≠ "" → ∀ notice ∈ notices, notice.topic = t) ∧
      (topic = some "" → ∀ notice ∈ notices, notice.key = key → notice.topic = "") ∧
      (key = none → ∀ notice ∈ notices, notice.key ≠ none) := by
  unfold RemovesExactly deleteNotice
  rw [filter_eq_filter_iff]
  simp only [isRetained_iff, Bool.not_eq_true', ← Bool.not_eq_true, isNamed_iff]
  constructor
  · intro h
    refine ⟨?_, ?_, ?_⟩
    · intro t ht hgiven notice hn
      by_contra hother
      have hkept := (h notice hn).mpr fun hnamed => hother (hnamed.2.2 t ht)
      exact hother (hkept.1 t ht hgiven)
    · intro ht notice hn hkey
      by_contra hother
      have hkept := (h notice hn).mpr fun hnamed => hother (hnamed.2.2 "" ht)
      exact hkept.2 hkey
    · intro hnone notice hn hkey
      have hkept := (h notice hn).mpr fun hnamed => hnamed.1 hnone
      exact hkept.2 (hkey.trans hnone.symm)
  · rintro ⟨hother, hempty, hkeyless⟩ notice hn
    constructor
    · rintro ⟨-, hkey⟩ hnamed
      exact hkey hnamed.2.1
    · intro hnamed
      refine ⟨fun t ht hgiven => hother t ht hgiven notice hn, fun hkey => hnamed ⟨?_, hkey, ?_⟩⟩
      · intro hnone
        exact hkeyless hnone notice hn (hkey.trans hnone)
      · intro t ht
        by_cases hgiven : t = ""
        · rw [hgiven] at ht ⊢
          exact hempty ht notice hn hkey
        · exact hother t ht hgiven notice hn

/-- Deleting a draw's notice under its topic takes the notice of another topic with it. -/
theorem other_topic_removed :
    ¬ ∀ notices key topic, RemovesExactly notices key topic := by
  intro h
  have hall := h [⟨"modifyDrawDefinition", .null, some "d"⟩, ⟨"deletedMatchUpIds", .null, none⟩]
    (some "d") (some "modifyDrawDefinition")
  have hlength := congrArg List.length hall
  exact absurd hlength (by decide)

/-! ## The active tournament -/

/-- The instance state, as far as records are loaded and one of them is active. -/
structure InstanceState where
  /-- `tournamentId`, as the caller has sent it. -/
  tournamentId : Option Json
  /-- `tournamentRecords`: what is held under each key; a key may hold `undefined`. -/
  tournamentRecords : List (String × Option Json)

/-- `newInstanceState()`. -/
def newInstanceState : InstanceState := ⟨none, []⟩

/-- What every object has from `Object.prototype`: each of them is truthy. -/
def OBJECT_PROTOTYPE : List String :=
  ["constructor", "hasOwnProperty", "isPrototypeOf", "propertyIsEnumerable", "toLocaleString",
    "toString", "valueOf", "__proto__", "__defineGetter__", "__defineSetter__",
    "__lookupGetter__", "__lookupSetter__"]

/-- `tournamentRecords[key]` is truthy. -/
def holds (records : List (String × Option Json)) (key : String) : Bool :=
  match records.lookup key with
  | some record => truthy record
  | none => OBJECT_PROTOTYPE.contains key

/-- The active tournament once the loaded ones are counted. -/
def activeAmong (records : List (String × Option Json)) (tournamentId : Option Json) :
    Option Json :=
  match records with
  | [] => none
  | [entry] => some (.str entry.1)
  | _ => tournamentId

/-- `setTournamentRecord`. -/
def setTournamentRecord (s : InstanceState) (tournamentRecord : Option Json) : InstanceState :=
  let tournamentId := ((chain tournamentRecord "tournamentId").map Json.propertyKey).getD "undefined"
  { s with tournamentRecords := setEntry s.tournamentRecords tournamentId tournamentRecord }

/-- `setTournamentId`. -/
def setTournamentId (s : InstanceState) (tournamentId : Option Json) : InstanceState :=
  if !truthy tournamentId then { s with tournamentId := none } else
  if tournamentId.any fun id => holds s.tournamentRecords id.propertyKey then
    { s with tournamentId := tournamentId }
  else s

/-- `setTournamentRecords`. -/
def setTournamentRecords (s : InstanceState) (tournamentRecords : List (String × Option Json)) :
    InstanceState :=
  ⟨activeAmong tournamentRecords s.tournamentId, tournamentRecords⟩

/-- `removeTournamentRecord`: anything but a string that names a record is refused. -/
def removeTournamentRecord (s : InstanceState) : Option Json → InstanceState
  | some (.str tournamentId) =>
    if holds s.tournamentRecords tournamentId then
      let records := s.tournamentRecords.filter fun entry => entry.1 ≠ tournamentId
      ⟨activeAmong records s.tournamentId, records⟩
    else s
  | _ => s

/-- An operation of the state provider. -/
inductive StateOperation where
  | setTournamentRecord (tournamentRecord : Option Json)
  | setTournamentId (tournamentId : Option Json)
  | setTournamentRecords (tournamentRecords : List (String × Option Json))
  | removeTournamentRecord (tournamentId : Option Json)

/-- The state after an operation. -/
def step (s : InstanceState) : StateOperation → InstanceState
  | .setTournamentRecord record => setTournamentRecord s record
  | .setTournamentId id => setTournamentId s id
  | .setTournamentRecords records => setTournamentRecords s records
  | .removeTournamentRecord id => removeTournamentRecord s id

/-- The key is one of the records'. -/
def IsKey (records : List (String × Option Json)) (id : Json) : Prop :=
  id.propertyKey ∈ records.map Prod.fst

instance (records : List (String × Option Json)) (id : Json) : Decidable (IsKey records id) :=
  inferInstanceAs (Decidable (_ ∈ _))

/-- No tournament is active, or a loaded one. -/
def ActiveLoaded (s : InstanceState) : Prop :=
  ∀ id, s.tournamentId = some id → IsKey s.tournamentRecords id

/-- What an operation must meet: two or more records that replace the loaded ones have the
active one among them, the active one is not removed from three or more, and no inherited
name is made active. -/
def KeepsActive (s : InstanceState) : StateOperation → Prop
  | .setTournamentRecord _ => True
  | .setTournamentId tournamentId => ∀ id, tournamentId = some id → truthy tournamentId = true →
      id.propertyKey ∈ OBJECT_PROTOTYPE → IsKey s.tournamentRecords id
  | .setTournamentRecords records => 2 ≤ records.length → ∀ id, s.tournamentId = some id →
      IsKey records id
  | .removeTournamentRecord tournamentId => ∀ removed, tournamentId = some (.str removed) →
      holds s.tournamentRecords removed = true →
      2 ≤ (s.tournamentRecords.filter fun entry => entry.1 ≠ removed).length →
      ∀ id, s.tournamentId = some id → id.propertyKey ≠ removed

/-- No tournament and exactly one are looked after; with more the pointer stays. -/
theorem activeAmong_loaded_iff (records : List (String × Option Json)) (tournamentId : Option Json) :
    ActiveLoaded ⟨activeAmong records tournamentId, records⟩ ↔
      (2 ≤ records.length → ∀ id, tournamentId = some id → IsKey records id) := by
  match records with
  | [] => simp [ActiveLoaded, activeAmong]
  | [entry] => simp [ActiveLoaded, activeAmong, IsKey, Json.propertyKey]
  | first :: second :: rest => simp [ActiveLoaded, activeAmong]

/-- A truthy property is the record of a key, or an inherited one. -/
theorem key_of_holds {records : List (String × Option Json)} {key : String}
    (h : holds records key = true) : key ∈ records.map Prod.fst ∨ key ∈ OBJECT_PROTOTYPE := by
  unfold holds at h
  cases hl : records.lookup key with
  | none =>
    rw [hl] at h
    exact Or.inr (List.contains_iff_mem.mp h)
  | some record =>
    obtain ⟨before, after, heq, -⟩ := List.lookup_eq_some_iff.mp hl
    exact Or.inl (List.mem_map.mpr ⟨(key, record), by simp [heq], rfl⟩)

/-- An operation on a state whose active tournament is loaded leaves it so exactly when it
meets the condition. -/
theorem step_loaded_iff (s : InstanceState) (a : StateOperation) (hs : ActiveLoaded s) :
    ActiveLoaded (step s a) ↔ KeepsActive s a := by
  cases a with
  | setTournamentRecord record =>
    refine iff_of_true ?_ trivial
    intro id hid
    have hkey := hs id hid
    obtain ⟨entry, hentry, hname⟩ := List.mem_map.mp hkey
    simp only [step, setTournamentRecord, IsKey, List.mem_map]
    by_cases hsame : entry.1 =
        ((chain record "tournamentId").map Json.propertyKey).getD "undefined"
    · exact ⟨_, mem_setEntry.mpr (Or.inl rfl), by rw [← hsame, hname]⟩
    · exact ⟨entry, mem_setEntry.mpr (Or.inr ⟨hentry, hsame⟩), hname⟩
  | setTournamentId tournamentId =>
    simp only [step, setTournamentId, KeepsActive]
    by_cases ht : truthy tournamentId = true
    · rw [if_neg (by simp [ht])]
      cases tournamentId with
      | none => cases ht
      | some id =>
        simp only [Option.any_some]
        by_cases hh : holds s.tournamentRecords id.propertyKey = true
        · rw [if_pos hh]
          constructor
          · intro hloaded other hother _ _
            exact hloaded other hother
          · rintro hmeets other ⟨⟩
            rcases key_of_holds hh with hkey | hinherited
            · exact hkey
            · exact hmeets id rfl ht hinherited
        · rw [if_neg hh]
          refine iff_of_true hs ?_
          rintro other ⟨⟩ - hinherited
          by_contra hno
          have hnone : s.tournamentRecords.lookup id.propertyKey = none :=
            PrimaryKeys.lookup_eq_none hno
          simp only [holds, hnone] at hh
          exact hh (List.contains_iff_mem.mpr hinherited)
    · rw [if_pos (by simpa using ht)]
      refine iff_of_true ?_ fun id _ htruthy => absurd htruthy ht
      intro id hid
      cases hid
  | setTournamentRecords records => exact activeAmong_loaded_iff records s.tournamentId
  | removeTournamentRecord tournamentId =>
    have hkept : removeTournamentRecord s tournamentId = s →
        (∀ removed, tournamentId = some (.str removed) →
          holds s.tournamentRecords removed ≠ true) →
        (ActiveLoaded (removeTournamentRecord s tournamentId) ↔
          KeepsActive s (.removeTournamentRecord tournamentId)) := by
      intro hsame hrefused
      rw [hsame]
      exact iff_of_true hs fun removed hr hh => absurd hh (hrefused removed hr)
    match tournamentId, hkept with
    | none, hkept => exact hkept rfl (by rintro removed ⟨⟩)
    | some .null, hkept => exact hkept rfl (by rintro removed ⟨⟩)
    | some (.bool b), hkept => exact hkept rfl (by rintro removed ⟨⟩)
    | some (.num n), hkept => exact hkept rfl (by rintro removed ⟨⟩)
    | some (.arr items), hkept => exact hkept rfl (by rintro removed ⟨⟩)
    | some (.obj fields), hkept => exact hkept rfl (by rintro removed ⟨⟩)
    | some (.str removed), hkept =>
      by_cases hh : holds s.tournamentRecords removed = true
      · simp only [step, removeTournamentRecord, if_pos hh, KeepsActive]
        rw [activeAmong_loaded_iff]
        constructor
        · rintro hloaded other ⟨⟩ - hmany id hid heq
          have hkey := hloaded hmany id hid
          simp [IsKey, heq] at hkey
        · intro hmeets hmany id hid
          have hne := hmeets removed rfl hh hmany id hid
          obtain ⟨entry, hentry, hname⟩ := List.mem_map.mp (hs id hid)
          refine List.mem_map.mpr ⟨entry, List.mem_filter.mpr ⟨hentry, ?_⟩, hname⟩
          simpa [hname] using hne
      · refine hkept (by simp [removeTournamentRecord, hh]) ?_
        rintro other ⟨⟩
        exact hh

/-- From a fresh state the active tournament is always a loaded one, or absent, exactly when
every operation meets the condition in the state it finds. -/
theorem active_loaded_iff (operations : List StateOperation) :
    (∀ past, past <+: operations → ActiveLoaded (run step newInstanceState past)) ↔
      RunMeets step KeepsActive newInstanceState operations :=
  runMeets_iff_always step_loaded_iff fun _ hid => by cases hid

/-- Two loaded records replace the active one, which stays active. -/
theorem replaced_stays_active :
    ¬ ∀ operations past, past <+: operations →
      ActiveLoaded (run step newInstanceState past) := by
  intro h
  have hloaded := h [.setTournamentRecords [("a", some .null)],
    .setTournamentRecords [("b", some .null), ("c", some .null)]] _ (List.prefix_refl _)
  have hkey := hloaded (.str "a") rfl
  exact absurd hkey (by decide)

end FactoryServer.EngineState
