import FactoryServer.EngineState

/-!
# What the notice buffer keeps

`addNotice` marks the call's tournament and topic as modified, and buffers the notice where
somebody subscribes to its topic. A keyed notice takes the place of the one before it and
inherits that one's identity, so that the buffered payload is the latest one completed by
the identity of all that were superseded.
-/

namespace FactoryServer.NoticeRetention

open JsonValue InsertionMaps GuardedRuns EngineState

/-! ## Adding a notice -/

/-- What the provider takes from the factory package, as far as the package has it. -/
structure NoticeRules where
  /-- `noticeModifies`. -/
  noticeModifies : Option (String → Bool)
  /-- `modifiedTournamentId`. -/
  modifiedTournamentId : Option (Json → Option String)
  /-- `UNNAMED_TOURNAMENT`. -/
  UNNAMED_TOURNAMENT : String
  /-- `UNANNOUNCED_WRITE`. -/
  UNANNOUNCED_WRITE : String
  /-- `globalState.preserveNoticeIdentity`. -/
  preserveNoticeIdentity : Json → Json → Json

/-- The instance state, as far as notices go. -/
structure NoticeState where
  /-- `disableNotifications`. -/
  disableNotifications : Bool
  /-- The topics with a subscription. -/
  subscriptions : List String
  /-- `modified`. -/
  modified : Bool
  /-- `modifiedTournamentIds`. -/
  modifiedTournamentIds : List String
  /-- `modifiedTopics`. -/
  modifiedTopics : List String
  /-- `notices`. -/
  notices : List Notice

/-- The arguments of `addNotice`. -/
structure NoticeCall where
  /-- `topic`. -/
  topic : Option Json
  /-- `payload`. -/
  payload : Option Json
  /-- `key`. -/
  key : Option String
  /-- `isGlobalSubscription`. -/
  isGlobalSubscription : Bool

/-- `typeof value === 'object'`. -/
def isObjectType : Option Json → Bool
  | some .null => true
  | some (.arr _) => true
  | some (.obj _) => true
  | _ => false

/-- The topic and the payload of a call that is a notice. -/
def NoticeCall.announced (call : NoticeCall) : Option (String × Json) :=
  match call.topic, call.payload with
  | some (.str topic), some payload =>
    if isObjectType (some payload) then some (topic, payload) else none
  | _, _ => none

variable (rules : NoticeRules)

/-- `noticeModifies?.(topic) ?? true`. -/
def noticeModifies (topic : String) : Bool :=
  (rules.noticeModifies.map fun decides => decides topic).getD true

/-- `modifiedTournamentId?.(payload) ?? UNNAMED_TOURNAMENT`. -/
def modifiedTournamentId (payload : Json) : String :=
  (rules.modifiedTournamentId.bind fun names => names payload).getD rules.UNNAMED_TOURNAMENT

/-- The text, or the other one where it is empty. -/
def textOr (text other : String) : String := if text = "" then other else text

/-- `markModified`. -/
def markModified (s : NoticeState) (tournamentId topic : String) : NoticeState :=
  { s with
    modified := true
    modifiedTournamentIds :=
      addItem s.modifiedTournamentIds (textOr tournamentId rules.UNNAMED_TOURNAMENT)
    modifiedTopics := addItem s.modifiedTopics (textOr topic rules.UNANNOUNCED_WRITE) }

/-- `instanceState.subscriptions[topic]` is truthy. -/
def isSubscribed (s : NoticeState) (topic : String) : Bool :=
  s.subscriptions.contains topic || OBJECT_PROTOTYPE.contains topic

/-- The notice of a call that the buffer takes, as it was announced. -/
def retainedBy (s : NoticeState) (call : NoticeCall) : Option Notice :=
  match call.announced with
  | none => none
  | some (topic, payload) =>
    if s.disableNotifications || (!isSubscribed s topic && !call.isGlobalSubscription) then none
    else some ⟨topic, payload, call.key⟩

/-- The state with what a call modifies. -/
def markedBy (s : NoticeState) (call : NoticeCall) : NoticeState :=
  match call.announced with
  | none => s
  | some (topic, payload) =>
    if !s.disableNotifications && noticeModifies rules topic then
      markModified rules s (modifiedTournamentId rules payload) topic
    else s

/-- The buffer with one more notice. -/
def bufferNotice (notices : List Notice) (notice : Notice) : List Notice :=
  EngineState.addNotice rules.preserveNoticeIdentity notices notice.topic notice.payload notice.key

/-- `addNotice`. -/
def addNotice (s : NoticeState) (call : NoticeCall) : NoticeState :=
  { markedBy rules s call with
    notices := (retainedBy s call).elim s.notices (bufferNotice rules s.notices) }

/-- What happens while the engine runs. -/
inductive NoticeOperation where
  /-- `addNotice` is called. -/
  | addNotice (call : NoticeCall)
  /-- `disableNotifications` is set. -/
  | toggle (disabled : Bool)

/-- One operation. -/
def step (s : NoticeState) : NoticeOperation → NoticeState
  | .addNotice call => addNotice rules s call
  | .toggle disabled => { s with disableNotifications := disabled }

/-- The notices that the buffer takes during a run, as they were announced. -/
def retained (s : NoticeState) : List NoticeOperation → List Notice
  | [] => []
  | .addNotice call :: rest =>
    (retainedBy s call).toList ++ retained (addNotice rules s call) rest
  | .toggle disabled :: rest => retained { s with disableNotifications := disabled } rest

/-! ## What the buffer must keep -/

/-- The helper keeps the fields of the new payload and adds the identity of the old one. -/
def CompletesIdentity (identity : String → Bool) : Prop :=
  ∀ new old field, (rules.preserveNoticeIdentity new old).field? field =
    (new.field? field).or (if identity field then old.field? field else none)

/-- The payload is the latest one, completed by the identity of those before it. -/
def Completed (identity : String → Bool) (payloads : List Json) (payload : Json) : Prop :=
  ∀ field, payload.field? field =
    if identity field then payloads.reverse.findSome? (Json.field? field)
    else payloads.getLast?.bind (Json.field? field)

/-- The payloads of a topic and a key, in the order of the notices. -/
def payloadsOf (notices : List Notice) (topic : String) (key : Option String) : List Json :=
  (notices.filter (supersedes topic key)).map Notice.payload

/-- The notice has no key. -/
def isUnkeyed (notice : Notice) : Bool := !isGiven notice.key

/-- Keyed notices are unique and lose no identity, unkeyed ones stay in order, and what a
notice modifies while notifications are enabled is marked. -/
structure NoticesKept (identity : String → Bool) (s : NoticeState)
    (operations : List NoticeOperation) : Prop where
  /-- There is one notice at most of a topic about a key. -/
  once : KeyedOnce (run (step rules) s operations).notices
  /-- A key that was clear has the latest payload with the identity of the superseded ones. -/
  completed : ∀ topic key, isGiven key = true → s.notices.filter (supersedes topic key) = [] →
    payloadsOf (retained rules s operations) topic key ≠ [] →
      ∃ payload, (run (step rules) s operations).notices.filter (supersedes topic key) =
          [⟨topic, payload, key⟩] ∧
        Completed identity (payloadsOf (retained rules s operations) topic key) payload
  /-- Unkeyed notices keep their order, and none is removed. -/
  unkeyed : (run (step rules) s operations).notices.filter isUnkeyed =
    s.notices.filter isUnkeyed ++ (retained rules s operations).filter isUnkeyed
  /-- A modifying notice marks its tournament and topic, buffered or not. -/
  marked : ∀ earlier call later topic payload, operations = earlier ++ .addNotice call :: later →
    call.announced = some (topic, payload) → noticeModifies rules topic = true →
      (run (step rules) s earlier).disableNotifications = false →
        (run (step rules) s operations).modified = true ∧
        textOr (modifiedTournamentId rules payload) rules.UNNAMED_TOURNAMENT ∈
          (run (step rules) s operations).modifiedTournamentIds ∧
        textOr topic rules.UNANNOUNCED_WRITE ∈ (run (step rules) s operations).modifiedTopics

/-! ## The buffer of a run -/

/-- A run buffers the notices it takes one after another. -/
theorem notices_run (s : NoticeState) (operations : List NoticeOperation) :
    (run (step rules) s operations).notices =
      (retained rules s operations).foldl (bufferNotice rules) s.notices := by
  induction operations generalizing s with
  | nil => rfl
  | cons a rest ih =>
    have hrest := ih (step rules s a)
    cases a with
    | addNotice call =>
      rw [retained, List.foldl_append]
      refine hrest.trans ?_
      have hadded : (addNotice rules s call).notices =
          (retainedBy s call).toList.foldl (bufferNotice rules) s.notices := by
        cases hretained : retainedBy s call with
        | none => simp only [addNotice, hretained, Option.elim_none, Option.toList_none,
            List.foldl_nil]
        | some notice => simp only [addNotice, hretained, Option.elim_some, Option.toList_some,
            List.foldl_cons, List.foldl_nil]
      rw [← hadded]
      rfl
    | toggle disabled => exact hrest

/-- Buffering leaves one notice at most of a topic about a key. -/
theorem keyedOnce_buffered {buffer : List Notice} (h : KeyedOnce buffer) (notices : List Notice) :
    KeyedOnce (notices.foldl (bufferNotice rules) buffer) := by
  induction notices generalizing buffer with
  | nil => exact h
  | cons notice rest ih =>
    exact ih (keyedOnce_addNotice rules.preserveNoticeIdentity h notice.topic notice.payload
      notice.key)

/-- Buffering a notice takes no unkeyed one. -/
theorem unkeyed_bufferNotice (buffer : List Notice) (notice : Notice) :
    (bufferNotice rules buffer notice).filter isUnkeyed =
      buffer.filter isUnkeyed ++ [notice].filter isUnkeyed := by
  unfold bufferNotice EngineState.addNotice
  by_cases hkey : isGiven notice.key = true
  · rw [if_pos hkey, List.filter_append, List.filter_filter]
    have hnew : isUnkeyed notice = false := by rw [isUnkeyed, hkey, Bool.not_true]
    have hstays : ∀ n ∈ buffer,
        (isUnkeyed n && !supersedes notice.topic notice.key n) = isUnkeyed n := by
      intro n _
      cases hunkeyed : isUnkeyed n with
      | false => rfl
      | true =>
        have hother : supersedes notice.topic notice.key n = false := by
          rw [Bool.eq_false_iff]
          intro hsame
          have hkeys : n.key = notice.key := by
            simp only [supersedes, Bool.and_eq_true, beq_iff_eq] at hsame
            exact hsame.2
          rw [isUnkeyed, hkeys, hkey] at hunkeyed
          cases hunkeyed
        rw [hother]
        rfl
    rw [List.filter_congr hstays]
    simp only [List.filter_cons, List.filter_nil, isUnkeyed, hkey, Bool.not_true,
      Bool.false_eq_true, if_false]
  · rw [if_neg hkey, List.filter_append]

/-- Buffering keeps the unkeyed notices in their order. -/
theorem unkeyed_buffered (buffer notices : List Notice) :
    (notices.foldl (bufferNotice rules) buffer).filter isUnkeyed =
      buffer.filter isUnkeyed ++ notices.filter isUnkeyed := by
  induction notices generalizing buffer with
  | nil => rw [List.foldl_nil, List.filter_nil, List.append_nil]
  | cons notice rest ih =>
    have hsplit : (notice :: rest).filter isUnkeyed =
        [notice].filter isUnkeyed ++ rest.filter isUnkeyed := by
      rw [← List.filter_append, List.singleton_append]
    rw [List.foldl_cons, ih, unkeyed_bufferNotice, hsplit, List.append_assoc]

/-- Buffering a notice replaces what it supersedes and touches no other topic or key. -/
theorem superseded_bufferNotice (buffer : List Notice) (notice : Notice) {topic : String}
    {key : Option String} (hkey : isGiven key = true) :
    (bufferNotice rules buffer notice).filter (supersedes topic key) =
      if supersedes topic key notice then
        [⟨topic, (buffer.filter (supersedes topic key)).foldl (fun outgoing old =>
          rules.preserveNoticeIdentity outgoing old.payload) notice.payload, key⟩]
      else buffer.filter (supersedes topic key) := by
  unfold bufferNotice EngineState.addNotice
  by_cases hsame : supersedes topic key notice = true
  · have hboth : notice.topic = topic ∧ notice.key = key := by
      simpa only [supersedes, Bool.and_eq_true, beq_iff_eq] using hsame
    obtain ⟨htopic, hsamekey⟩ := hboth
    have hnone : (buffer.filter fun n => !supersedes topic key n).filter (supersedes topic key) =
        [] := by
      rw [List.filter_filter, List.filter_eq_nil_iff]
      intro n _
      simp
    rw [if_pos hsame, htopic, hsamekey, if_pos hkey, List.filter_append, hnone, List.nil_append]
    simp [supersedes]
  · have hnew : ∀ payload, supersedes topic key ⟨notice.topic, payload, notice.key⟩ = false := by
      intro payload
      exact Bool.eq_false_iff.mpr hsame
    rw [if_neg hsame]
    by_cases hgiven : isGiven notice.key = true
    · have hstays : ∀ n ∈ buffer,
          (supersedes topic key n && !supersedes notice.topic notice.key n) =
            supersedes topic key n := by
        intro n _
        cases hn : supersedes topic key n with
        | false => rfl
        | true =>
          have hother : supersedes notice.topic notice.key n = false := by
            rw [Bool.eq_false_iff]
            intro hclash
            simp only [supersedes, Bool.and_eq_true, beq_iff_eq] at hn hclash hsame
            exact hsame ⟨hclash.1.symm.trans hn.1, hclash.2.symm.trans hn.2⟩
          rw [hother]
          rfl
      rw [if_pos hgiven, List.filter_append, List.filter_filter, List.filter_congr hstays]
      simp only [List.filter_cons, List.filter_nil, hnew, Bool.false_eq_true, if_false,
        List.append_nil]
    · rw [if_neg hgiven, List.filter_append]
      simp only [List.filter_cons, List.filter_nil, hnew, Bool.false_eq_true, if_false,
        List.append_nil]

variable {rules} {identity : String → Bool}

/-- The first payload is complete. -/
theorem completed_singleton (payload : Json) : Completed identity [payload] payload := by
  intro field
  cases identity field with
  | true =>
    rw [if_pos rfl, List.reverse_singleton, List.findSome?_cons]
    cases payload.field? field <;> rfl
  | false => rfl

/-- A payload that is given the identity of the completed one before it is complete. -/
theorem completed_concat (hlaw : CompletesIdentity rules identity) {payloads : List Json}
    {old : Json} (h : Completed identity payloads old) (payload : Json) :
    Completed identity (payloads ++ [payload]) (rules.preserveNoticeIdentity payload old) := by
  intro field
  rw [hlaw payload old field]
  have hold := h field
  cases hidentity : identity field with
  | true =>
    rw [hidentity, if_pos rfl] at hold
    rw [if_pos rfl, if_pos rfl, List.reverse_append, List.reverse_singleton, List.singleton_append,
      List.findSome?_cons, hold]
    cases payload.field? field <;> rfl
  | false =>
    rw [if_neg (by simp), if_neg (by simp), Option.or_none, List.getLast?_append,
      List.getLast?_singleton, Option.some_or, Option.bind_some]

/-- What the buffer has of a topic and a key that was clear. -/
theorem completed_buffered (hlaw : CompletesIdentity rules identity) {buffer : List Notice}
    {topic : String} {key : Option String} (hkey : isGiven key = true)
    (hclear : buffer.filter (supersedes topic key) = []) (notices : List Notice) :
    (payloadsOf notices topic key = [] →
      (notices.foldl (bufferNotice rules) buffer).filter (supersedes topic key) = []) ∧
    (payloadsOf notices topic key ≠ [] → ∃ payload,
      (notices.foldl (bufferNotice rules) buffer).filter (supersedes topic key) =
        [⟨topic, payload, key⟩] ∧ Completed identity (payloadsOf notices topic key) payload) := by
  induction notices using List.reverseRecOn with
  | nil => exact ⟨fun _ => hclear, fun h => absurd rfl h⟩
  | append_singleton earlier notice ih =>
    have hstep := @superseded_bufferNotice rules
      (earlier.foldl (bufferNotice rules) buffer) notice topic key hkey
    rw [List.foldl_append, List.foldl_cons, List.foldl_nil, hstep]
    have hpayloads : payloadsOf (earlier ++ [notice]) topic key = payloadsOf earlier topic key ++
        payloadsOf [notice] topic key := by
      rw [payloadsOf, List.filter_append, List.map_append]
      rfl
    rw [hpayloads]
    by_cases hsame : supersedes topic key notice = true
    · have hone : payloadsOf [notice] topic key = [notice.payload] := by
        simp only [payloadsOf, List.filter_cons, hsame, if_true, List.filter_nil, List.map_cons,
          List.map_nil]
      rw [hone, if_pos hsame]
      refine ⟨fun h => absurd h (by simp), fun _ => ?_⟩
      by_cases hearlier : payloadsOf earlier topic key = []
      · rw [ih.1 hearlier, hearlier]
        exact ⟨_, rfl, completed_singleton notice.payload⟩
      · obtain ⟨old, hold, hcompleted⟩ := ih.2 hearlier
        rw [hold]
        exact ⟨_, rfl, completed_concat hlaw hcompleted notice.payload⟩
    · have hnone : payloadsOf [notice] topic key = [] := by
        simp only [payloadsOf, List.filter_cons, hsame, if_false, List.filter_nil, List.map_nil,
          Bool.false_eq_true]
      rw [hnone, List.append_nil, if_neg hsame]
      exact ih

/-! ## What a run marks -/

/-- A set that gets an item keeps the others. -/
theorem mem_addItem_of_mem {items : List String} {item : String} (h : item ∈ items)
    (added : String) : item ∈ addItem items added := mem_addItem.mpr (.inl h)

/-- What is marked stays marked. -/
theorem marked_step (s : NoticeState) (a : NoticeOperation) :
    (s.modified = true → (step rules s a).modified = true) ∧
      (∀ id ∈ s.modifiedTournamentIds, id ∈ (step rules s a).modifiedTournamentIds) ∧
      ∀ topic ∈ s.modifiedTopics, topic ∈ (step rules s a).modifiedTopics := by
  cases a with
  | toggle disabled => exact ⟨id, fun _ h => h, fun _ h => h⟩
  | addNotice call =>
    simp only [step, addNotice, markedBy]
    split
    · exact ⟨id, fun _ h => h, fun _ h => h⟩
    · split_ifs
      · exact ⟨fun _ => rfl, fun _ h => mem_addItem_of_mem h _, fun _ h => mem_addItem_of_mem h _⟩
      · exact ⟨id, fun _ h => h, fun _ h => h⟩

/-- What is marked stays marked during a run. -/
theorem marked_run (operations : List NoticeOperation) (s : NoticeState) :
    (s.modified = true → (run (step rules) s operations).modified = true) ∧
      (∀ id ∈ s.modifiedTournamentIds,
        id ∈ (run (step rules) s operations).modifiedTournamentIds) ∧
      ∀ topic ∈ s.modifiedTopics, topic ∈ (run (step rules) s operations).modifiedTopics := by
  induction operations generalizing s with
  | nil => exact ⟨id, fun _ h => h, fun _ h => h⟩
  | cons a rest ih =>
    obtain ⟨hmodified, hids, htopics⟩ := @marked_step rules s a
    obtain ⟨hmodified', hids', htopics'⟩ := ih (step rules s a)
    exact ⟨fun h => hmodified' (hmodified h), fun id h => hids' id (hids id h),
      fun topic h => htopics' topic (htopics topic h)⟩

/-- In every run the notices are kept, and what a notice modifies is marked while
notifications are enabled. -/
theorem notices_kept (hlaw : CompletesIdentity rules identity) {s : NoticeState}
    (hs : KeyedOnce s.notices) (operations : List NoticeOperation) :
    NoticesKept rules identity s operations where
  once := by
    rw [notices_run]
    exact keyedOnce_buffered rules hs _
  completed := by
    intro topic key hkey hclear hpayloads
    rw [notices_run]
    exact (completed_buffered hlaw hkey hclear _).2 hpayloads
  unkeyed := by
    rw [notices_run]
    exact unkeyed_buffered rules s.notices _
  marked := by
    intro earlier call later topic payload hoperations hannounced hmodifies henabled
    set before := run (step rules) s earlier with hbefore
    have hafter : run (step rules) s operations =
        run (step rules) (addNotice rules before call) later := by
      rw [hoperations, run, List.foldl_append, List.foldl_cons]
      rfl
    have hmarked : addNotice rules before call =
        { markModified rules before (modifiedTournamentId rules payload) topic with
          notices := (retainedBy before call).elim before.notices
            (bufferNotice rules before.notices) } := by
      simp only [addNotice, markedBy, hannounced, henabled, hmodifies, Bool.not_false,
        Bool.and_self, if_true]
    obtain ⟨hmodified, hids, htopics⟩ := @marked_run rules later
      (addNotice rules before call)
    rw [hafter]
    refine ⟨hmodified ?_, hids _ ?_, htopics _ ?_⟩
    · rw [hmarked]
      rfl
    · rw [hmarked]
      exact mem_addItem.mpr (.inr rfl)
    · rw [hmarked]
      exact mem_addItem.mpr (.inr rfl)

/-- A package whose helper keeps the tournament id. -/
def keepsTournamentId : NoticeRules where
  noticeModifies := none
  modifiedTournamentId := some fun payload => (payload.field? "tournamentId").bind Json.str?
  UNNAMED_TOURNAMENT := "*"
  UNANNOUNCED_WRITE := "*"
  preserveNoticeIdentity new old :=
    let fields := match new with
      | .obj fields => fields
      | _ => []
    .obj (fields ++ if (new.field? "tournamentId").isSome then []
      else (old.field? "tournamentId").toList.map fun id => ("tournamentId", id))

/-- Its identity is the tournament id. -/
def isTournamentId (field : String) : Bool := field == "tournamentId"

/-- The helper does what it is relied on for. -/
theorem keepsTournamentId_law : CompletesIdentity keepsTournamentId isTournamentId := by
  intro new old field
  have hfields : ∀ fields : List (String × Json),
      (Json.obj (fields ++ if ((Json.obj fields).field? "tournamentId").isSome then []
        else (old.field? "tournamentId").toList.map fun id => ("tournamentId", id))).field? field =
        ((Json.obj fields).field? field).or
          (if isTournamentId field then old.field? field else none) := by
    intro fields
    cases hown : (Json.obj fields).field? "tournamentId" with
    | some id =>
      by_cases hfield : field = "tournamentId"
      · rw [hfield, hown, Option.isSome_some, if_pos rfl, List.append_nil, hown, Option.some_or]
      · simp [isTournamentId, hfield]
    | none =>
      cases hold : old.field? "tournamentId" with
      | none =>
        by_cases hfield : field = "tournamentId"
        · simp [hfield, hold, hown, isTournamentId]
        · simp [isTournamentId, hfield]
      | some id =>
        by_cases hfield : field = "tournamentId"
        · subst hfield
          have hnone : fields.find? (fun f => f.1 == "tournamentId") = none :=
            Option.map_eq_none_iff.mp hown
          rw [hold, hown]
          simp [Json.field?, List.find?_append, hnone, isTournamentId]
        · have hother : ("tournamentId" == field) = false := beq_false_of_ne (Ne.symm hfield)
          simp [Json.field?, List.find?_append, hother, isTournamentId, hfield]
  cases new with
  | obj fields => exact hfields fields
  | _ => exact hfields []

/-- A state with a subscription to draws. -/
def subscribed : NoticeState := ⟨false, ["modifyDrawDefinition"], false, [], [], []⟩

/-- A notice about a draw. -/
def drawNotice (payload : Json) : NoticeCall :=
  ⟨some (.str "modifyDrawDefinition"), some payload, some "d", false⟩

/-- The second notice of a draw gets the tournament of the first. -/
theorem draw_notices_kept :
    NoticesKept keepsTournamentId isTournamentId subscribed
      [.addNotice (drawNotice (.obj [("tournamentId", .str "t")])),
        .addNotice (drawNotice (.obj [("drawId", .str "d")]))] := by
  have hclear : KeyedOnce subscribed.notices := List.Pairwise.nil
  exact notices_kept keepsTournamentId_law hclear _

/-- While notifications are disabled a modifying notice marks nothing. -/
theorem disabled_not_marked :
    (drawNotice (.obj [("tournamentId", .str "t")])).announced =
        some ("modifyDrawDefinition", .obj [("tournamentId", .str "t")]) ∧
      noticeModifies keepsTournamentId "modifyDrawDefinition" = true ∧
      ¬ ((run (step keepsTournamentId) subscribed [.toggle true,
          .addNotice (drawNotice (.obj [("tournamentId", .str "t")]))]).modified = true ∧
        "t" ∈ (run (step keepsTournamentId) subscribed [.toggle true,
          .addNotice (drawNotice (.obj [("tournamentId", .str "t")]))]).modifiedTournamentIds ∧
        "modifyDrawDefinition" ∈ (run (step keepsTournamentId) subscribed [.toggle true,
          .addNotice (drawNotice (.obj [("tournamentId", .str "t")]))]).modifiedTopics) := by
  refine ⟨rfl, rfl, fun h => ?_⟩
  cases h.1

end FactoryServer.NoticeRetention
