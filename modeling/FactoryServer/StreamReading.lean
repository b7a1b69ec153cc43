import FactoryServer.ServerSentEvents

/-!
# What the reader makes of a stream

The blocks of a buffer that grows are those of the whole text, so the calls of the handler
depend on the bytes alone. On lines, a block ends at a blank line that ends with LF; blank
lines with CR LF and comments say nothing, and a field is read without the white space
around it.
-/

namespace FactoryServer.StreamReading

open JsonReading TextCodes Utf8Decoding ServerSentEvents

variable {ν : Type} (numberOf : List Char → ν)

/-! ## Pieces -/

/-- A buffer without a separator has no block. -/
theorem drain_none {buffer : List Char} (h : splitSeparator buffer = none) :
    drain buffer = ([], buffer) := by
  rw [drain]
  split
  · rfl
  · next hsome => exact absurd (h.symm.trans hsome) (by simp)

/-- A separator cuts a block off. -/
theorem drain_some {buffer block rest : List Char}
    (h : splitSeparator buffer = some (block, rest)) :
    drain buffer = (block :: (drain rest).1, (drain rest).2) := by
  rw [drain]
  split
  · next hnone => exact absurd (hnone.symm.trans h) (by simp)
  · next hsome =>
    obtain ⟨rfl, rfl⟩ := Prod.mk.inj (Option.some.inj (hsome.symm.trans h))
    rfl

/-- A separator stays where it is when text arrives. -/
theorem splitSeparator_append {buffer block rest : List Char}
    (h : splitSeparator buffer = some (block, rest)) (more : List Char) :
    splitSeparator (buffer ++ more) = some (block, rest ++ more) := by
  induction buffer generalizing block with
  | nil => simp [splitSeparator] at h
  | cons c buffer ih =>
    rw [splitSeparator] at h
    rw [List.cons_append, splitSeparator]
    split_ifs at h with hmark
    · obtain ⟨rfl, rfl⟩ := Prod.mk.inj (Option.some.inj h)
      cases buffer with
      | nil => simp at hmark
      | cons next buffer =>
        rw [if_pos ⟨hmark.1, hmark.2⟩]
        rfl
    · obtain ⟨cut, hcut, heq⟩ := Option.map_eq_some_iff.mp h
      obtain ⟨rfl, rfl⟩ := Prod.mk.inj heq
      have hahead : ¬(c = lineBreak ∧ (buffer ++ more).head? = some lineBreak) := by
        rintro ⟨hc, hhead⟩
        cases buffer with
        | nil => simp [splitSeparator] at hcut
        | cons next buffer => exact hmark ⟨hc, hhead⟩
      rw [if_neg hahead, ih hcut]
      rfl

/-- The blocks of two pieces of text. -/
theorem drain_append (buffer more : List Char) :
    drain (buffer ++ more) = ((drain buffer).1 ++ (drain ((drain buffer).2 ++ more)).1,
      (drain ((drain buffer).2 ++ more)).2) := by
  cases h : splitSeparator buffer with
  | none =>
    rw [drain_none h]
    rfl
  | some cut =>
    have hshort := splitSeparator_length h
    rw [drain_some h, drain_some (splitSeparator_append h more), drain_append cut.2 more]
    rfl
termination_by buffer.length

/-- What is left contains no separator. -/
theorem drain_rest (buffer : List Char) : splitSeparator (drain buffer).2 = none := by
  cases h : splitSeparator buffer with
  | none =>
    rw [drain_none h]
    exact h
  | some cut =>
    have hshort := splitSeparator_length h
    rw [drain_some h]
    exact drain_rest cut.2
termination_by buffer.length

/-- The calls of the handler are the events of the blocks of the decoded text. -/
theorem consumeFrom_eq (decoder : Decoder) {buffer : List Char}
    (h : splitSeparator buffer = none) (chunks : List (List UInt8)) :
    consumeFrom numberOf decoder buffer chunks =
      (drain (buffer ++ (decoder.decode chunks.flatten).2)).1.filterMap
        (parseEventBlock numberOf) := by
  induction chunks generalizing decoder buffer with
  | nil =>
    have hdecode : (decoder.decode ([] : List (List UInt8)).flatten).2 = [] := rfl
    rw [hdecode, List.append_nil, drain_none h]
    rfl
  | cons value rest ih =>
    rw [consumeFrom, List.flatten_cons, Decoder.decode_append]
    dsimp only
    rw [ih _ (drain_rest _), ← List.append_assoc, drain_append (buffer ++ _),
      List.filterMap_append]

/-- The calls of the handler depend on the bytes alone. -/
theorem consumeSseStream_eq (chunks : List (List UInt8)) :
    consumeSseStream numberOf chunks =
      (drain (decodeText chunks.flatten)).1.filterMap (parseEventBlock numberOf) := by
  rw [consumeSseStream, consumeFrom_eq numberOf {} rfl]
  rfl

/-- Whatever the bytes are, they may arrive one by one as well, and what arrives later changes
none of the calls that have been made: it adds calls behind them. -/
theorem calls_arrive (chunks more : List (List UInt8)) :
    consumeSseStream numberOf chunks =
        consumeSseStream numberOf (chunks.flatten.map fun byte => [byte]) ∧
      consumeSseStream numberOf chunks <+: consumeSseStream numberOf (chunks ++ more) := by
  have hbytes : (chunks.flatten.map fun byte => [byte]).flatten = chunks.flatten :=
    List.flatMap_singleton' chunks.flatten
  constructor
  · rw [consumeSseStream_eq, consumeSseStream_eq, hbytes]
  · have htext : decodeText (chunks ++ more).flatten = decodeText chunks.flatten ++
        ((Decoder.decode {} chunks.flatten).1.decode more.flatten).2 := by
      rw [decodeText, List.flatten_append, Decoder.decode_append]
      rfl
    rw [consumeSseStream_eq, consumeSseStream_eq, htext, drain_append, List.filterMap_append]
    exact List.prefix_append _ _

/-! ## Blocks of lines -/

/-- The first separator stands behind a line that an empty one follows. -/
theorem splitSeparator_line {line : List Char} (h : lineBreak ∉ line) (rest : List Char) :
    splitSeparator (line ++ lineBreak :: rest) =
      if rest.head? = some lineBreak then some (line, rest.tail)
      else (splitSeparator rest).map fun cut => (line ++ lineBreak :: cut.1, cut.2) := by
  induction line with
  | nil =>
    rw [List.nil_append, splitSeparator]
    simp
  | cons c line ih =>
    obtain ⟨hc, hline⟩ := not_or.mp (mt List.mem_cons.mpr h)
    rw [List.cons_append, splitSeparator, if_neg fun hmark => hc hmark.1.symm, ih hline]
    split_ifs
    · rfl
    · rw [Option.map_map]
      rfl

/-- A line without an end contains no separator. -/
theorem splitSeparator_unended {text : List Char} (h : lineBreak ∉ text) :
    splitSeparator text = none := by
  induction text with
  | nil => rfl
  | cons c text ih =>
    obtain ⟨hc, htext⟩ := not_or.mp (mt List.mem_cons.mpr h)
    rw [splitSeparator, if_neg fun hmark => hc hmark.1.symm, ih htext]
    rfl

/-- Texts without a line feed, of which at most the first is empty. -/
def Unseparated (held : List (List Char)) : Prop :=
  (∀ raw ∈ held, lineBreak ∉ raw) ∧ ∀ raw ∈ held.tail, raw ≠ []

/-- The text after a first line begins with no line feed. -/
theorem Unseparated.head {first next : List Char} {more : List (List Char)}
    (h : Unseparated (first :: next :: more)) (text : List Char) :
    (renderRaw (next :: more) ++ text).head? ≠ some lineBreak := by
  have hne : next ≠ [] := h.2 next List.mem_cons_self
  have hbreak : lineBreak ∉ next := h.1 next (List.mem_cons_of_mem _ List.mem_cons_self)
  cases next with
  | nil => exact absurd rfl hne
  | cons c next =>
    have hc : lineBreak ≠ c := (not_or.mp (mt List.mem_cons.mpr hbreak)).1
    exact fun hhead => hc (Option.some.inj hhead).symm

/-- The lines after the first are unseparated as well. -/
theorem Unseparated.rest {first : List Char} {more : List (List Char)}
    (h : Unseparated (first :: more)) : Unseparated more :=
  ⟨fun raw hin => h.1 raw (List.mem_cons_of_mem _ hin),
    fun raw hin => h.2 raw (List.mem_of_mem_tail hin)⟩

/-- A first line in front of rendered ones. -/
theorem renderRaw_cons (first : List Char) (more : List (List Char)) (text : List Char) :
    renderRaw (first :: more) ++ text = first ++ lineBreak :: (renderRaw more ++ text) := by
  simp [renderRaw]

/-- An empty line after unseparated ones ends their block. -/
theorem Unseparated.ended {first : List Char} {more : List (List Char)}
    (h : Unseparated (first :: more)) (rest : List Char) :
    splitSeparator (renderRaw (first :: more) ++ lineBreak :: rest) =
      some (joinLines (first :: more), rest) := by
  have hfirst : lineBreak ∉ first := h.1 first List.mem_cons_self
  rw [renderRaw_cons, splitSeparator_line hfirst]
  induction more generalizing first with
  | nil => simp [renderRaw, joinLines]
  | cons next more ih =>
    have hnext : lineBreak ∉ next := h.rest.1 next List.mem_cons_self
    rw [if_neg (h.head _), renderRaw_cons, splitSeparator_line hnext, ih h.rest hnext]
    simp [joinLines, List.intercalate]

/-- Unseparated lines contain no separator. -/
theorem Unseparated.unended {held : List (List Char)} (h : Unseparated held)
    {tail : List Char} (htail : lineBreak ∉ tail) :
    splitSeparator (renderRaw held ++ tail) = none := by
  induction held with
  | nil => exact splitSeparator_unended htail
  | cons first more ih =>
    have hhead : (renderRaw more ++ tail).head? ≠ some lineBreak := by
      cases more with
      | nil => exact fun hhead => htail (List.mem_of_mem_head? hhead)
      | cons next more => exact h.head _
    rw [renderRaw_cons, splitSeparator_line (h.1 first List.mem_cons_self), if_neg hhead,
      ih h.rest]
    rfl

/-- The blocks of lines: an empty line ends the block of the lines before it. -/
def rawBlocks (held : List (List Char)) : List (List Char) → List (List (List Char))
  | [] => []
  | raw :: rest =>
    if raw = [] ∧ held ≠ [] then held :: rawBlocks [] rest else rawBlocks (held ++ [raw]) rest

/-- The blocks of a text are those of its lines. -/
theorem drain_render {held raws : List (List Char)} (hheld : Unseparated held)
    (hraws : ∀ raw ∈ raws, lineBreak ∉ raw) {tail : List Char} (htail : lineBreak ∉ tail) :
    (drain (renderRaw (held ++ raws) ++ tail)).1 = (rawBlocks held raws).map joinLines := by
  induction raws generalizing held with
  | nil =>
    rw [List.append_nil, drain_none (hheld.unended htail)]
    rfl
  | cons raw raws ih =>
    have hrest : ∀ raw ∈ raws, lineBreak ∉ raw := fun r hin => hraws r (List.mem_cons_of_mem _ hin)
    have hraw : lineBreak ∉ raw := hraws raw List.mem_cons_self
    rw [rawBlocks]
    split_ifs with hend
    · obtain ⟨rfl, hne⟩ := hend
      obtain ⟨first, more, rfl⟩ := List.exists_cons_of_ne_nil hne
      have hsplit : renderRaw (first :: more ++ [] :: raws) ++ tail =
          renderRaw (first :: more) ++ lineBreak :: (renderRaw raws ++ tail) := by
        simp [renderRaw]
      have hnil : Unseparated [] := ⟨nofun, nofun⟩
      rw [hsplit, drain_some (hheld.ended _), List.map_cons, ← ih hnil hrest]
      rfl
    · have hnext : Unseparated (held ++ [raw]) := by
        refine ⟨fun r hin => ?_, fun r hin => ?_⟩
        · rcases List.mem_append.mp hin with hin | hin
          · exact hheld.1 r hin
          · rwa [List.mem_singleton.mp hin]
        · cases held with
          | nil => exact absurd hin nofun
          | cons first more =>
            rcases List.mem_append.mp hin with hin | hin
            · exact hheld.2 r hin
            · rw [List.mem_singleton.mp hin]
              exact fun hnil => hend ⟨hnil, List.cons_ne_nil _ _⟩
      rw [← ih hnext hrest, List.append_assoc]
      rfl

/-- A block of lines is parsed line by line. -/
theorem parseEventBlock_lines {block : List (List Char)} (hne : block ≠ [])
    (h : ∀ raw ∈ block, lineBreak ∉ raw) :
    parseEventBlock numberOf (joinLines block) = finishBlock numberOf (block.foldl readLine {}) := by
  rw [parseEventBlock, joinLines, List.splitOn_intercalate lineBreak h hne]

/-- No block is empty, and its lines are lines of the text. -/
theorem mem_rawBlocks {held raws : List (List Char)} {block : List (List Char)}
    (h : block ∈ rawBlocks held raws) : block ≠ [] ∧ ∀ raw ∈ block, raw ∈ held ++ raws := by
  induction raws generalizing held with
  | nil => exact absurd h nofun
  | cons raw raws ih =>
    rw [rawBlocks] at h
    split_ifs at h with hend
    · rcases List.mem_cons.mp h with rfl | hin
      · exact ⟨hend.2, fun raw hin => List.mem_append_left _ hin⟩
      · refine ⟨(ih hin).1, fun r hr => ?_⟩
        exact List.mem_append_right _ (List.mem_cons_of_mem _ ((ih hin).2 r hr))
    · refine ⟨(ih h).1, fun r hr => ?_⟩
      have hmem := (ih h).2 r hr
      rwa [List.append_assoc] at hmem

/-! ## Fields -/

/-- What a field says to the reader. -/
def readField (state : BlockState) (f : Field) : BlockState :=
  match f.name, f.value with
  | _, none => state
  | .event, some text => { state with eventName := trim text.val }
  | .data, some text => { state with dataLines := state.dataLines ++ [trimStart text.val] }

/-- What a line says to the reader. -/
def readSse (state : BlockState) : SseLine → BlockState
  | .field f => readField state f
  | _ => state

/-- No line contains a line end. -/
theorem chars_clean (line : SseLine) :
    carriageReturn ∉ line.chars ∧ lineBreak ∉ line.chars := by
  have hcolon : ∀ text : LineText,
      carriageReturn ∉ ':' :: text.val ∧ lineBreak ∉ ':' :: text.val := by
    intro text
    simp only [List.mem_cons, not_or]
    exact ⟨⟨by decide, text.property.1⟩, by decide, text.property.2⟩
  cases line with
  | blank => exact ⟨nofun, nofun⟩
  | comment text => exact hcolon text
  | field f =>
    have hname : carriageReturn ∉ f.name.chars ∧ lineBreak ∉ f.name.chars := by
      cases f.name <;> decide
    have hrest : carriageReturn ∉ f.rest ∧ lineBreak ∉ f.rest := by
      unfold Field.rest
      cases f.value with
      | none => exact ⟨nofun, nofun⟩
      | some text => exact hcolon text
    simp only [SseLine.chars, List.mem_append, not_or]
    exact ⟨⟨hname.1, hrest.1⟩, hname.2, hrest.2⟩

/-- A line's text contains no line feed. -/
theorem rawLine_clean (line : SseLine × LineEnd) : lineBreak ∉ rawLine line := by
  obtain ⟨line, ending⟩ := line
  cases ending with
  | lf => exact (chars_clean line).2
  | crlf =>
    simp only [rawLine, List.mem_append, List.mem_singleton, not_or]
    exact ⟨(chars_clean line).2, by decide⟩

/-- Either line end is dropped. -/
theorem stripReturn_rawLine (line : SseLine × LineEnd) :
    stripReturn (rawLine line) = line.1.chars := by
  obtain ⟨line, ending⟩ := line
  cases ending with
  | lf =>
    have hlast : line.chars.getLast? ≠ some carriageReturn := fun h =>
      (chars_clean line).1 (List.mem_of_getLast? h)
    exact if_neg hlast
  | crlf => simp [stripReturn, rawLine]

/-- A line says what its field says. -/
theorem readLine_rawLine (state : BlockState) (line : SseLine × LineEnd) :
    readLine state (rawLine line) = readSse state line.1 := by
  unfold readLine
  rw [stripReturn_rawLine]
  obtain ⟨line, ending⟩ := line
  cases line with
  | blank => rfl
  | comment text => rfl
  | field f =>
    obtain ⟨name, value⟩ := f
    cases name with
    | event => cases value <;> rfl
    | data => cases value <;> rfl

/-- Only a blank line that ends with LF is empty. -/
theorem rawLine_eq_nil {line : SseLine × LineEnd} :
    rawLine line = [] ↔ line = (.blank, .lf) := by
  obtain ⟨line, ending⟩ := line
  cases ending with
  | crlf => simp [rawLine]
  | lf =>
    cases line with
    | blank => simp [rawLine, SseLine.chars]
    | comment text => simp [rawLine, SseLine.chars]
    | field f =>
      have hname : f.name.chars ≠ [] := by cases f.name <;> decide
      simp [rawLine, SseLine.chars, hname]

/-- The fields between two blank lines that end with LF. -/
def blocksFrom (fields : List Field) : List (SseLine × LineEnd) → List (List Field)
  | [] => []
  | (.blank, .lf) :: rest =>
    if fields = [] then blocksFrom [] rest else fields :: blocksFrom [] rest
  | (.blank, .crlf) :: rest => blocksFrom fields rest
  | (.comment _, _) :: rest => blocksFrom fields rest
  | (.field f, _) :: rest => blocksFrom (fields ++ [f]) rest

/-- The event that the reader makes of some fields. -/
def readEvent (fields : List Field) : Option (SseEvent ν) :=
  finishBlock numberOf (fields.foldl readField {})

/-- The events of the blocks of lines are those of their fields. -/
theorem rawBlocks_events {held : List (List Char)} {fields : List Field}
    (hsame : held.foldl readLine {} = fields.foldl readField {}) (hheld : fields ≠ [] → held ≠ [])
    (lines : List (SseLine × LineEnd)) :
    (rawBlocks held (lines.map rawLine)).filterMap
        (fun block => finishBlock numberOf (block.foldl readLine {})) =
      (blocksFrom fields lines).filterMap (readEvent numberOf) := by
  induction lines generalizing held fields with
  | nil => rfl
  | cons line lines ih =>
    -- a line that does not end the block says what its field says
    have hmore : ∀ next : List Field, rawLine line ≠ [] →
        readSse (fields.foldl readField {}) line.1 = next.foldl readField {} →
        (rawBlocks held ((line :: lines).map rawLine)).filterMap
            (fun block => finishBlock numberOf (block.foldl readLine {})) =
          (blocksFrom next lines).filterMap (readEvent numberOf) := by
      intro next hraw hread
      rw [List.map_cons, rawBlocks, if_neg fun hend => hraw hend.1]
      refine ih ?_ fun _ => by simp
      rw [List.foldl_append, List.foldl_cons, List.foldl_nil, hsame, readLine_rawLine, hread]
    have hraw : line ≠ (.blank, .lf) → rawLine line ≠ [] := mt rawLine_eq_nil.mp
    match line with
    | (.comment text, ending) => exact hmore fields (hraw (by simp)) rfl
    | (.field f, ending) =>
      refine hmore (fields ++ [f]) (hraw (by simp)) ?_
      rw [List.foldl_append]
      rfl
    | (.blank, .crlf) => exact hmore fields (hraw (by simp)) rfl
    | (.blank, .lf) =>
      have hblank : rawLine (.blank, .lf) = [] := rfl
      rw [List.map_cons, rawBlocks, hblank, blocksFrom]
      by_cases hnil : held = []
      · have hfields : fields = [] := by
          by_contra hne
          exact hheld hne hnil
        subst hnil hfields
        rw [if_neg fun hend => hend.2 rfl, if_pos rfl]
        exact ih rfl nofun
      · rw [if_pos ⟨rfl, hnil⟩, List.filterMap_cons, hsame, ih rfl nofun]
        split_ifs with hfields
        · rw [hfields]
          rfl
        · rw [List.filterMap_cons]
          rfl

/-- On a stream of lines the reader makes an event of every block of fields. -/
theorem consume_lines {chunks : List (List UInt8)} {lines : List (SseLine × LineEnd)}
    {tail : List Char} (htail : lineBreak ∉ tail)
    (h : decodeText chunks.flatten = render lines ++ tail) :
    consumeSseStream numberOf chunks =
      (blocksFrom [] lines).filterMap (readEvent numberOf) := by
  have hclean : ∀ raw ∈ lines.map rawLine, lineBreak ∉ raw := by
    intro raw hin
    obtain ⟨line, -, rfl⟩ := List.mem_map.mp hin
    exact rawLine_clean line
  have hnil : Unseparated [] := ⟨nofun, nofun⟩
  have hblocks := drain_render hnil hclean htail
  rw [List.nil_append] at hblocks
  rw [consumeSseStream_eq, h, render, hblocks, List.filterMap_map,
    ← rawBlocks_events numberOf rfl nofun]
  refine List.filterMap_congr fun block hin => ?_
  have hmem := mem_rawBlocks hin
  exact parseEventBlock_lines numberOf hmem.1 fun raw hraw => hclean raw (hmem.2 raw hraw)

end FactoryServer.StreamReading
