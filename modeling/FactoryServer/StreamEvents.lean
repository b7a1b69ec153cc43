import FactoryServer.StreamReading

/-!
# Where the reader finds the events of the grammar

The reader ends an event at a blank line that ends with LF, the grammar at every blank line.
Both find the same groups of fields exactly where every group that a CR LF blank line ends is
followed by an LF one before the next field. A group is then read alike where its name is
what `trim` leaves of it and its data lines begin with no white space but spaces and tabs, or
where its data is no JSON at all.
-/

namespace FactoryServer.StreamEvents

open JsonReading TextCodes Utf8Decoding ServerSentEvents StreamReading

variable {ν : Type} (numberOf : List Char → ν)

/-! ## Groups and blocks -/

/-- What stands between the last LF blank line and the next line. -/
inductive Gap
  /-- No field. -/
  | closed
  /-- A group that no blank line has ended. -/
  | opened
  /-- A group that a CR LF blank line has ended. -/
  | owed

/-- Every group that a CR LF blank line ends is followed by an LF one before the next field and
before the stream ends. -/
def separatedFrom : Gap → List (SseLine × LineEnd) → Prop
  | .owed, [] => False
  | _, [] => True
  | gap, (.comment _, _) :: rest => separatedFrom gap rest
  | .owed, (.field _, _) :: _ => False
  | _, (.field _, _) :: rest => separatedFrom .opened rest
  | _, (.blank, .lf) :: rest => separatedFrom .closed rest
  | .closed, (.blank, .crlf) :: rest => separatedFrom .closed rest
  | _, (.blank, .crlf) :: rest => separatedFrom .owed rest

/-- Every group of a stream is ended by an LF blank line before the next one begins. -/
def Separated (lines : List (SseLine × LineEnd)) : Prop := separatedFrom .closed lines

/-- The fields that the reader and the grammar hold in a gap. -/
def Holds (held fields : List Field) : Gap → Prop
  | .closed => held = [] ∧ fields = []
  | .opened => held = fields ∧ fields ≠ []
  | .owed => held ≠ [] ∧ fields = []

/-- One more field. -/
theorem snoc_ne_nil (fields : List Field) (f : Field) : fields ++ [f] ≠ [] := by simp

/-- Where the groups are separated, the blocks are the groups. -/
theorem blocks_of_separated {gap : Gap} {lines : List (SseLine × LineEnd)}
    (h : separatedFrom gap lines) {held fields : List Field} (hholds : Holds held fields gap) :
    blocksFrom held lines =
      match gap with
      | .owed => held :: groupsFrom fields lines
      | _ => groupsFrom fields lines := by
  have hclosed : Holds [] [] .closed := ⟨rfl, rfl⟩
  induction lines generalizing gap held fields with
  | nil =>
    cases gap with
    | closed => rfl
    | opened => rfl
    | owed => exact h.elim
  | cons line lines ih =>
    match line with
    | (.comment text, ending) => cases gap <;> exact ih h hholds
    | (.field f, ending) =>
      have hopened : Holds (fields ++ [f]) (fields ++ [f]) .opened := ⟨rfl, snoc_ne_nil fields f⟩
      cases gap with
      | closed =>
        obtain ⟨rfl, rfl⟩ := hholds
        exact ih h hopened
      | opened =>
        obtain ⟨rfl, -⟩ := hholds
        exact ih h hopened
      | owed => exact h.elim
    | (.blank, .lf) =>
      cases gap with
      | closed =>
        obtain ⟨rfl, rfl⟩ := hholds
        exact ih h hclosed
      | opened =>
        obtain ⟨rfl, hne⟩ := hholds
        have hrest := ih h hclosed
        rw [blocksFrom, groupsFrom, if_neg hne, if_neg hne, hrest]
      | owed =>
        obtain ⟨hne, rfl⟩ := hholds
        have hrest := ih h hclosed
        rw [blocksFrom, if_neg hne, hrest]
        rfl
    | (.blank, .crlf) =>
      cases gap with
      | closed =>
        obtain ⟨rfl, rfl⟩ := hholds
        exact ih h hclosed
      | opened =>
        obtain ⟨rfl, hne⟩ := hholds
        have howed : Holds held [] .owed := ⟨hne, rfl⟩
        have hrest := ih h howed
        rw [blocksFrom, groupsFrom, if_neg hne]
        exact hrest
      | owed =>
        obtain ⟨hne, rfl⟩ := hholds
        have howed : Holds held [] .owed := ⟨hne, rfl⟩
        exact ih h howed

/-- There are no more blocks than groups, except for one that waits for its blank line. -/
theorem blocks_length_le (lines : List (SseLine × LineEnd)) {held fields : List Field}
    (h : fields ≠ [] → held ≠ []) :
    (blocksFrom held lines).length ≤
      (groupsFrom fields lines).length + if held ≠ [] ∧ fields = [] then 1 else 0 := by
  induction lines generalizing held fields with
  | nil => exact Nat.zero_le _
  | cons line lines ih =>
    match line with
    | (.comment text, ending) => exact ih h
    | (.field f, ending) =>
      have hboth : fields ++ [f] ≠ [] → held ++ [f] ≠ [] := fun _ => snoc_ne_nil held f
      have hrest := ih hboth
      rw [if_neg fun hwait => snoc_ne_nil fields f hwait.2] at hrest
      rw [blocksFrom, groupsFrom]
      omega
    | (.blank, .lf) =>
      have hneither : ([] : List Field) ≠ [] → ([] : List Field) ≠ [] := id
      have hrest := ih hneither
      rw [if_neg fun hwait => hwait.1 rfl] at hrest
      rw [blocksFrom, groupsFrom]
      by_cases hheld : held = []
      · have hfields : fields = [] := by
          by_contra hne
          exact h hne hheld
        rw [if_pos hheld, if_pos hfields]
        omega
      · rw [if_neg hheld]
        by_cases hfields : fields = []
        · rw [if_pos hfields, if_pos ⟨hheld, hfields⟩, List.length_cons]
          omega
        · rw [if_neg hfields, List.length_cons, List.length_cons]
          omega
    | (.blank, .crlf) =>
      have hfirst : ([] : List Field) ≠ [] → held ≠ [] := fun hne => absurd rfl hne
      have hrest := ih hfirst
      rw [blocksFrom, groupsFrom]
      by_cases hfields : fields = []
      · rw [if_pos hfields, hfields]
        exact hrest
      · rw [if_pos ⟨h hfields, rfl⟩] at hrest
        rw [if_neg hfields, List.length_cons]
        omega

/-- Where the groups are not separated, blocks are missing. -/
theorem blocks_length_lt {gap : Gap} {lines : List (SseLine × LineEnd)}
    (h : ¬separatedFrom gap lines) {held fields : List Field} (hholds : Holds held fields gap) :
    (blocksFrom held lines).length <
      (groupsFrom fields lines).length + match gap with
        | .owed => 1
        | _ => 0 := by
  have hclosed : Holds [] [] .closed := ⟨rfl, rfl⟩
  induction lines generalizing gap held fields with
  | nil =>
    cases gap with
    | closed => exact absurd trivial h
    | opened => exact absurd trivial h
    | owed => exact Nat.zero_lt_one
  | cons line lines ih =>
    match line with
    | (.comment text, ending) => cases gap <;> exact ih h hholds
    | (.field f, ending) =>
      have hopened : Holds (fields ++ [f]) (fields ++ [f]) .opened := ⟨rfl, snoc_ne_nil fields f⟩
      cases gap with
      | closed =>
        obtain ⟨rfl, rfl⟩ := hholds
        exact ih h hopened
      | opened =>
        obtain ⟨rfl, -⟩ := hholds
        exact ih h hopened
      | owed =>
        -- the new group and the one before it give one block at most
        have hboth : fields ++ [f] ≠ [] → held ++ [f] ≠ [] := fun _ => snoc_ne_nil held f
        have hrest := blocks_length_le lines hboth
        rw [if_neg fun hwait => snoc_ne_nil fields f hwait.2] at hrest
        rw [blocksFrom, groupsFrom]
        exact Nat.lt_succ_of_le hrest
    | (.blank, .lf) =>
      cases gap with
      | closed =>
        obtain ⟨rfl, rfl⟩ := hholds
        exact ih h hclosed
      | opened =>
        obtain ⟨rfl, hne⟩ := hholds
        have hrest := ih h hclosed
        rw [blocksFrom, groupsFrom, if_neg hne, if_neg hne, List.length_cons, List.length_cons]
        exact Nat.succ_lt_succ hrest
      | owed =>
        obtain ⟨hne, rfl⟩ := hholds
        have hrest := ih h hclosed
        rw [blocksFrom, if_neg hne, List.length_cons]
        exact Nat.succ_lt_succ hrest
    | (.blank, .crlf) =>
      cases gap with
      | closed =>
        obtain ⟨rfl, rfl⟩ := hholds
        exact ih h hclosed
      | opened =>
        obtain ⟨rfl, hne⟩ := hholds
        have howed : Holds held [] .owed := ⟨hne, rfl⟩
        have hrest := ih h howed
        rw [blocksFrom, groupsFrom, if_neg hne, List.length_cons]
        exact hrest
      | owed =>
        obtain ⟨hne, rfl⟩ := hholds
        have howed : Holds held [] .owed := ⟨hne, rfl⟩
        exact ih h howed

/-- The blocks are as many as the groups exactly where the groups are separated. -/
theorem separated_iff (lines : List (SseLine × LineEnd)) :
    Separated lines ↔ (groups lines).length ≤ (blocksFrom [] lines).length := by
  have hclosed : Holds [] [] .closed := ⟨rfl, rfl⟩
  constructor
  · intro h
    have hblocks := blocks_of_separated h hclosed
    rw [hblocks]
    exact le_rfl
  · intro hle
    by_contra h
    exact absurd hle (not_le.mpr (blocks_length_lt h hclosed))

/-- Where the groups are separated, the blocks are the groups. -/
theorem Separated.blocks {lines : List (SseLine × LineEnd)} (h : Separated lines) :
    blocksFrom [] lines = groups lines := by
  have hclosed : Holds [] [] .closed := ⟨rfl, rfl⟩
  exact blocks_of_separated h hclosed

/-! ## Data -/

/-- What stands before a text that is not trimmed is white space of JSON. -/
def SpacedPlainly (text : List Char) : Prop := ∀ c ∈ text.takeWhile isTrimmed, isSpace c = true

/-- Text behind its white space has the same tokens. -/
theorem tokensOf_trimStart {text : List Char} (h : SpacedPlainly text) :
    tokensOf (trimStart text) = tokensOf text := by
  unfold SpacedPlainly at h
  unfold trimStart
  induction text with
  | nil => rfl
  | cons c text ih =>
    rw [List.takeWhile_cons] at h
    rw [List.dropWhile_cons]
    split_ifs at h ⊢ with htrim
    · have hspace := h c List.mem_cons_self
      rw [tokensOf_space hspace]
      exact ih fun d hd => h d (List.mem_cons_of_mem _ hd)
    · rfl

/-- Text that can be cut into tokens begins with white space of JSON. -/
theorem spacedPlainly_of_tokens {text : List Char} (h : tokensOf text ≠ none) :
    SpacedPlainly text := by
  unfold SpacedPlainly
  induction text with
  | nil => exact nofun
  | cons c text ih =>
    rw [List.takeWhile_cons]
    split_ifs with htrim
    · have hspace : isSpace c = true := by
        by_contra hno
        exact h (tokensOf_foreign htrim (Bool.eq_false_iff.mpr hno) text)
      rw [tokensOf_space hspace] at h
      intro d hd
      rcases List.mem_cons.mp hd with rfl | hd
      · exact hspace
      · exact ih h d hd
    · exact nofun

/-- The value of a field has the tokens of what stands behind the colon. -/
theorem tokensOf_contents {f : Field} {text : LineText} (h : f.value = some text) :
    tokensOf f.contents = tokensOf text.val := by
  unfold Field.contents
  rw [h]
  dsimp only
  split_ifs with hhead
  · obtain ⟨rest, hrest⟩ := List.head?_eq_some_iff.mp hhead
    rw [hrest]
    exact (tokensOf_space (by decide) rest).symm
  · rfl

/-- The data lines that the reader keeps. -/
def readData (fields : List Field) : List (List Char) :=
  (fields.filter Field.isData).filterMap fun f => f.value.map fun text => trimStart text.val

/-- The reader's data lines are those of the fields. -/
theorem foldl_dataLines (fields : List Field) (state : BlockState) :
    (fields.foldl readField state).dataLines = state.dataLines ++ readData fields := by
  induction fields generalizing state with
  | nil => exact (List.append_nil _).symm
  | cons f fields ih =>
    rw [List.foldl_cons, ih]
    obtain ⟨name, value⟩ := f
    cases name with
    | event => cases value <;> rfl
    | data =>
      cases value with
      | none => rfl
      | some text =>
        have hread : readData (⟨.data, some text⟩ :: fields) =
            trimStart text.val :: readData fields := rfl
        rw [hread, readField, List.append_assoc]
        rfl

/-- The data lines of a group begin with white space of JSON. -/
def PlainData (fields : List Field) : Prop :=
  ∀ f ∈ fields, f.isData = true → ∀ text, f.value = some text → SpacedPlainly text.val

/-- The lines that are left of a group have the same white space. -/
theorem PlainData.tail {f : Field} {fields : List Field} (h : PlainData (f :: fields)) :
    PlainData fields := fun g hin => h g (List.mem_cons_of_mem _ hin)

/-- The tokens of the reader's data are those of the grammar's. -/
theorem linesTokens_readData {fields : List Field} (h : PlainData fields) :
    linesTokens (readData fields) = linesTokens (eventData fields) := by
  induction fields with
  | nil => rfl
  | cons f fields ih =>
    have hrest := ih h.tail
    have hplain := h f List.mem_cons_self
    have hvalue := @tokensOf_contents f
    obtain ⟨name, value⟩ := f
    cases name with
    | event => exact hrest
    | data =>
      cases value with
      | none =>
        -- a line without a colon is an empty line of data
        have hblank : linesTokens (eventData (⟨.data, none⟩ :: fields)) =
            linesTokens (eventData fields) := by
          change ((tokensOf []).bind fun first =>
            (linesTokens (eventData fields)).map fun more => first ++ more) = _
          rw [tokensOf_nil, Option.bind_some]
          simp
        rw [hblank]
        exact hrest
      | some text =>
        have hline := tokensOf_trimStart (hplain rfl text rfl)
        rw [← hvalue rfl] at hline
        change ((tokensOf (trimStart text.val)).bind fun first =>
            (linesTokens (readData fields)).map fun more => first ++ more) =
          (tokensOf _).bind fun first =>
            (linesTokens (eventData fields)).map fun more => first ++ more
        rw [hline, hrest]

/-- Lines that can be cut into tokens can be cut one by one. -/
theorem tokensOf_of_lines {lines : List (List Char)} (h : linesTokens lines ≠ none) :
    ∀ line ∈ lines, tokensOf line ≠ none := by
  induction lines with
  | nil => exact nofun
  | cons first lines ih =>
    rw [linesTokens] at h
    obtain ⟨tokens, htokens⟩ := Option.ne_none_iff_exists'.mp h
    obtain ⟨read, hread, hmore⟩ := Option.bind_eq_some_iff.mp htokens
    obtain ⟨more, hrest, -⟩ := Option.map_eq_some_iff.mp hmore
    intro line hin
    rcases List.mem_cons.mp hin with rfl | hin
    · exact Option.ne_none_iff_exists'.mpr ⟨read, hread⟩
    · exact ih (Option.ne_none_iff_exists'.mpr ⟨more, hrest⟩) line hin

/-- A group whose data is JSON begins its data lines with white space of JSON. -/
theorem plainData_of_json {fields : List Field} (h : (grammarEvent numberOf fields).isSome) :
    PlainData fields := by
  obtain ⟨event, hevent⟩ := Option.isSome_iff_exists.mp h
  unfold grammarEvent at hevent
  split_ifs at hevent
  obtain ⟨data, hdata, -⟩ := Option.map_eq_some_iff.mp hevent
  obtain ⟨tokens, htokens, -⟩ := Option.bind_eq_some_iff.mp hdata
  rw [tokensOf_joinLines] at htokens
  have hlines := tokensOf_of_lines (Option.ne_none_iff_exists'.mpr ⟨tokens, htokens⟩)
  intro f hf hname text htext
  have hmem : f.contents ∈ eventData fields :=
    List.mem_map_of_mem (List.mem_filter.mpr ⟨hf, hname⟩)
  have hread := hlines _ hmem
  rw [tokensOf_contents htext] at hread
  exact spacedPlainly_of_tokens hread

/-- The data of a group is the same value for the reader as for the grammar. -/
theorem parse_readData {fields : List Field} (h : PlainData fields) :
    parse numberOf (joinLines (readData fields)) =
      parse numberOf (joinLines (eventData fields)) := by
  rw [parse, parse, tokensOf_joinLines, tokensOf_joinLines, linesTokens_readData h]

/-! ## Events -/

/-- The name that the reader gives to a group. -/
def readName (fields : List Field) : List Char := (fields.foldl readField {}).eventName

/-- The reader gives a group the name that the grammar gives it. -/
def SameName (fields : List Field) : Prop := readName fields = eventType fields

/-- The reader's event of a group. -/
theorem readEvent_eq (fields : List Field) :
    readEvent numberOf fields =
      (parse numberOf (joinLines (readData fields))).map fun data => ⟨readName fields, data⟩ := by
  have hdata : (fields.foldl readField {}).dataLines = readData fields := foldl_dataLines fields {}
  unfold readEvent finishBlock
  rw [hdata]
  split_ifs with hnil
  · rw [hnil]
    rfl
  · rfl

/-- The grammar's event of a group. -/
theorem grammarEvent_eq (fields : List Field) :
    grammarEvent numberOf fields =
      (parse numberOf (joinLines (eventData fields))).map fun data => ⟨eventType fields, data⟩ := by
  unfold grammarEvent
  split_ifs with hnil
  · rw [hnil]
    rfl
  · rfl

/-- A group that is read plainly is the grammar's event. -/
theorem readEvent_plain {fields : List Field} (hdata : PlainData fields)
    (hname : SameName fields) : readEvent numberOf fields = grammarEvent numberOf fields := by
  rw [readEvent_eq, grammarEvent_eq, parse_readData numberOf hdata, hname]

/-- A group whose data is JSON is the grammar's event only under the grammar's name. -/
theorem sameName_of_event {fields : List Field} (h : (grammarEvent numberOf fields).isSome)
    (hsame : readEvent numberOf fields = grammarEvent numberOf fields) : SameName fields := by
  obtain ⟨event, hevent⟩ := Option.isSome_iff_exists.mp h
  rw [hevent, readEvent_eq] at hsame
  rw [grammarEvent_eq] at hevent
  obtain ⟨value, -, hread⟩ := Option.map_eq_some_iff.mp hsame
  obtain ⟨data, -, hwritten⟩ := Option.map_eq_some_iff.mp hevent
  exact congrArg SseEvent.event (hread.trans hwritten.symm)

/-- A group's data is no JSON, with its white space or without. -/
def NoJson (fields : List Field) : Prop :=
  parse numberOf (joinLines (readData fields)) = none ∧
    parse numberOf (joinLines (eventData fields)) = none

/-- A group is read plainly under the grammar's name, or it is no JSON. -/
def ReadAlike (fields : List Field) : Prop :=
  PlainData fields ∧ SameName fields ∨ NoJson numberOf fields

/-- The reader and the grammar agree about a group exactly where it is read alike. -/
theorem readEvent_iff (fields : List Field) :
    readEvent numberOf fields = grammarEvent numberOf fields ↔ ReadAlike numberOf fields := by
  constructor
  · intro hsame
    cases hevent : grammarEvent numberOf fields with
    | none =>
      rw [hevent, readEvent_eq] at hsame
      rw [grammarEvent_eq] at hevent
      exact Or.inr ⟨Option.map_eq_none_iff.mp hsame, Option.map_eq_none_iff.mp hevent⟩
    | some event =>
      have hjson : (grammarEvent numberOf fields).isSome := by
        rw [hevent]
        rfl
      exact Or.inl ⟨plainData_of_json numberOf hjson, sameName_of_event numberOf hjson hsame⟩
  · rintro (⟨hdata, hname⟩ | ⟨hread, hwritten⟩)
    · exact readEvent_plain numberOf hdata hname
    · rw [readEvent_eq, grammarEvent_eq, hread, hwritten]
      rfl

/-- Where every group gives an event, equal sequences of events are equal group by group. -/
theorem filterMap_agree {α β : Type} {f g : α → Option β} {items : List α}
    (hsome : ∀ item ∈ items, (g item).isSome) (h : items.filterMap f = items.filterMap g) :
    ∀ item ∈ items, f item = g item := by
  have hfull : ∀ list : List α, (∀ item ∈ list, (g item).isSome) →
      (list.filterMap g).length = list.length := by
    intro list hlist
    rw [List.filterMap_length_eq_length]
    exact hlist
  induction items with
  | nil => exact nofun
  | cons item items ih =>
    have hrest : ∀ other ∈ items, (g other).isSome := fun other hin =>
      hsome other (List.mem_cons_of_mem _ hin)
    obtain ⟨value, hvalue⟩ := Option.isSome_iff_exists.mp (hsome item List.mem_cons_self)
    rw [List.filterMap_cons, List.filterMap_cons, hvalue] at h
    cases hf : f item with
    | none =>
      rw [hf] at h
      have hlength : (items.filterMap f).length = (items.filterMap g).length + 1 :=
        congrArg List.length h
      rw [hfull items hrest] at hlength
      have hle := List.length_filterMap_le f items
      omega
    | some read =>
      rw [hf] at h
      obtain ⟨rfl, htail⟩ := List.cons.inj h
      intro other hin
      rcases List.mem_cons.mp hin with rfl | hin
      · rw [hf, hvalue]
      · exact ih hrest htail other hin

/-- Where the groups are separated and read alike, the handler is called with the events of
the grammar; where every group is an event, only then. In every case the calls depend on the
bytes alone, however they were cut into pieces. -/
theorem handler_called_iff {chunks : List (List UInt8)} {lines : List (SseLine × LineEnd)}
    {tail : List Char} (htail : lineBreak ∉ tail)
    (h : decodeText chunks.flatten = render lines ++ tail) :
    (∀ others : List (List UInt8), others.flatten = chunks.flatten →
      consumeSseStream numberOf others = consumeSseStream numberOf chunks) ∧
    ((Separated lines ∧ ∀ fields ∈ groups lines, ReadAlike numberOf fields) →
      consumeSseStream numberOf chunks = grammarEvents numberOf lines) ∧
    ((∀ fields ∈ groups lines, (grammarEvent numberOf fields).isSome) →
      (consumeSseStream numberOf chunks = grammarEvents numberOf lines ↔
        Separated lines ∧ ∀ fields ∈ groups lines, SameName fields)) := by
  have hread := consume_lines numberOf htail h
  have henough : (Separated lines ∧ ∀ fields ∈ groups lines, ReadAlike numberOf fields) →
      consumeSseStream numberOf chunks = grammarEvents numberOf lines := by
    rintro ⟨hseparated, halike⟩
    rw [hread, hseparated.blocks, grammarEvents]
    exact List.filterMap_congr fun fields hin =>
      (readEvent_iff numberOf fields).mpr (halike fields hin)
  refine ⟨fun others hothers => ?_, henough, fun hjson => ⟨fun hsame => ?_, fun hgood => ?_⟩⟩
  · rw [consumeSseStream_eq, consumeSseStream_eq, hothers]
  · have hfull : (grammarEvents numberOf lines).length = (groups lines).length := by
      rw [grammarEvents, List.filterMap_length_eq_length]
      exact hjson
    have hseparated : Separated lines := by
      rw [separated_iff, ← hfull, ← hsame, hread]
      exact List.length_filterMap_le _ _
    rw [hread, hseparated.blocks, grammarEvents] at hsame
    exact ⟨hseparated, fun fields hin =>
      sameName_of_event numberOf (hjson fields hin) (filterMap_agree hjson hsame fields hin)⟩
  · refine henough ⟨hgood.1, fun fields hin => Or.inl ?_⟩
    exact ⟨plainData_of_json numberOf (hjson fields hin), hgood.2 fields hin⟩

/-! ## Sample streams -/

/-- A data line with the value `1`. -/
def oneLine : SseLine := .field ⟨.data, some ⟨" 1".toList, by decide⟩⟩

/-- Events whose lines end with CR LF, but for the blank line. -/
def mixedLines : List (SseLine × LineEnd) :=
  [(.field ⟨.event, some ⟨" moved".toList, by decide⟩⟩, .crlf),
   (.field ⟨.data, some ⟨[' ', quoteMark, Char.ofNat 0xE9, quoteMark], by decide⟩⟩, .crlf),
   (.blank, .lf), (oneLine, .lf), (.blank, .lf)]

/-- Their bytes, cut inside a character and between the line feeds of a separator. -/
def mixedChunks : List (List UInt8) :=
  [[101, 118, 101, 110, 116, 58, 32, 109, 111, 118, 101, 100, 13, 10, 100, 97, 116, 97, 58, 32,
    34, 195], [169, 34, 13, 10], [10, 100, 97, 116, 97, 58, 32, 49, 10], [], [10, 58]]

/-- Both events are handed to the handler. -/
theorem mixed_called : consumeSseStream id mixedChunks = grammarEvents id mixedLines ∧
    grammarEvents id mixedLines =
      [⟨"moved".toList, .text [0xE9]⟩, ⟨"message".toList, .num ['1']⟩] := by
  have hdecoded : decodeText mixedChunks.flatten = render mixedLines ++ [':'] := by
    decide +kernel
  have hevents := handler_called_iff id (by decide) hdecoded
  have hseparated : Separated mixedLines := trivial
  have hgroups : groups mixedLines =
      [[⟨.event, some ⟨" moved".toList, by decide⟩⟩,
        ⟨.data, some ⟨[' ', quoteMark, Char.ofNat 0xE9, quoteMark], by decide⟩⟩],
       [⟨.data, some ⟨" 1".toList, by decide⟩⟩]] := rfl
  refine ⟨hevents.2.2 ?_ |>.mpr ⟨hseparated, ?_⟩, rfl⟩
  · rw [hgroups]
    simp only [List.forall_mem_cons, List.not_mem_nil, false_imp_iff, implies_true, and_true]
    exact ⟨rfl, rfl⟩
  · rw [hgroups]
    simp only [List.forall_mem_cons, List.not_mem_nil, false_imp_iff, implies_true, and_true]
    exact ⟨rfl, rfl⟩

/-- An event that ends with a blank CR LF line. -/
def returnedLines : List (SseLine × LineEnd) := [(oneLine, .crlf), (.blank, .crlf)]

/-- The bytes of `data: 1`, CR LF, CR LF. -/
def returnedBytes : List UInt8 := [100, 97, 116, 97, 58, 32, 49, 13, 10, 13, 10]

/-- With CR LF line ends alone the handler is not called. -/
theorem returned_not_called :
    ¬∀ (chunks : List (List UInt8)) (lines : List (SseLine × LineEnd)) (tail : List Char),
      lineBreak ∉ tail → decodeText chunks.flatten = render lines ++ tail →
      consumeSseStream id chunks = grammarEvents id lines := by
  intro hclaim
  have hdecoded : decodeText [returnedBytes].flatten = render returnedLines ++ [] := by
    decide +kernel
  have hbreak : lineBreak ∉ ([] : List Char) := nofun
  have hread := consume_lines id hbreak hdecoded
  have hwrong := hclaim [returnedBytes] returnedLines [] hbreak hdecoded
  rw [hread] at hwrong
  exact absurd (congrArg List.length hwrong) (by decide)

end FactoryServer.StreamEvents
