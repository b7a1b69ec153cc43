import FactoryServer.JsonReading
import FactoryServer.Utf8Decoding

/-!
# Server-sent events

`consumeSseStream` decodes the pieces of a response one after another, keeps what it has not
used in a buffer, and cuts the buffer wherever two line feeds stand next to each other. Each
piece is a block of lines, and a block with JSON data is an event. The grammar of server-sent
events ends an event at every blank line, whether it ends with LF or with CR LF.
-/

namespace FactoryServer.ServerSentEvents

open JsonReading TextCodes Utf8Decoding

variable {ν : Type} (numberOf : List Char → ν)

/-- An event that the handler is called with. -/
structure SseEvent (ν : Type) where
  /-- Its name. -/
  event : List Char
  /-- The value of its data. -/
  data : Parsed ν

/-! ## The reader -/

/-- The carriage return. -/
def carriageReturn : Char := Char.ofNat 13

/-- `rawLine.endsWith('\r') ? rawLine.slice(0, -1) : rawLine`. -/
def stripReturn (rawLine : List Char) : List Char :=
  if rawLine.getLast? = some carriageReturn then rawLine.dropLast else rawLine

/-- What a block has said so far. -/
structure BlockState where
  /-- `eventName`. -/
  eventName : List Char := "message".toList
  /-- `dataLines`. -/
  dataLines : List (List Char) := []

/-- One line of a block. -/
def readLine (state : BlockState) (rawLine : List Char) : BlockState :=
  let line := stripReturn rawLine
  if line = [] ∨ line.head? = some ':' then state
  else if "event:".toList.isPrefixOf line then { state with eventName := trim (line.drop 6) }
  else if "data:".toList.isPrefixOf line then
    { state with dataLines := state.dataLines ++ [trimStart (line.drop 5)] }
  else state

/-- The event of a block whose lines have been read. -/
def finishBlock (state : BlockState) : Option (SseEvent ν) :=
  if state.dataLines = [] then none
  else (parse numberOf (joinLines state.dataLines)).map fun data => ⟨state.eventName, data⟩

/-- `parseEventBlock`. -/
def parseEventBlock (block : List Char) : Option (SseEvent ν) :=
  finishBlock numberOf ((block.splitOn lineBreak).foldl readLine {})

/-- What stands before and behind the first separator, `'\n\n'`. -/
def splitSeparator : List Char → Option (List Char × List Char)
  | [] => none
  | c :: rest =>
    if c = lineBreak ∧ rest.head? = some lineBreak then some ([], rest.tail)
    else (splitSeparator rest).map fun cut => (c :: cut.1, cut.2)

/-- Behind a separator there is less than before. -/
theorem splitSeparator_length {buffer block rest : List Char}
    (h : splitSeparator buffer = some (block, rest)) : rest.length < buffer.length := by
  induction buffer generalizing block with
  | nil => exact absurd h nofun
  | cons c buffer ih =>
    rw [splitSeparator] at h
    split_ifs at h with hmark
    · rw [← (Prod.mk.inj (Option.some.inj h)).2, List.length_tail, List.length_cons]
      omega
    · obtain ⟨cut, hcut, heq⟩ := Option.map_eq_some_iff.mp h
      obtain ⟨-, rfl⟩ := Prod.mk.inj heq
      have hshort := ih hcut
      rw [List.length_cons]
      omega

/-- The blocks of a buffer and what is left of it. -/
def drain (buffer : List Char) : List (List Char) × List Char :=
  match h : splitSeparator buffer with
  | none => ([], buffer)
  | some (block, rest) =>
    have := splitSeparator_length h
    let more := drain rest
    (block :: more.1, more.2)
termination_by buffer.length

/-- The calls of the handler while the pieces that are left arrive. -/
def consumeFrom (decoder : Decoder) (buffer : List Char) : List (List UInt8) → List (SseEvent ν)
  | [] => []
  | value :: rest =>
    let decoded := decoder.decode value
    let drained := drain (buffer ++ decoded.2)
    drained.1.filterMap (parseEventBlock numberOf) ++ consumeFrom decoded.1 drained.2 rest

/-- `consumeSseStream`, by the calls of its handler. -/
def consumeSseStream (chunks : List (List UInt8)) : List (SseEvent ν) :=
  consumeFrom numberOf {} [] chunks

/-! ## The grammar -/

/-- A text without line ends. -/
abbrev LineText := { text : List Char // carriageReturn ∉ text ∧ lineBreak ∉ text }

/-- The names of the fields. -/
inductive FieldName
  /-- `event`. -/
  | event
  /-- `data`. -/
  | data

/-- The text of a name. -/
def FieldName.chars : FieldName → List Char
  | .event => "event".toList
  | .data => "data".toList

/-- A field: its name and what stands behind the colon, where there is one. -/
structure Field where
  /-- The name. -/
  name : FieldName
  /-- What follows the colon. -/
  value : Option LineText

/-- The lines of a stream. -/
inductive SseLine
  /-- A blank line. -/
  | blank
  /-- A comment. -/
  | comment (text : LineText)
  /-- A field. -/
  | field (f : Field)

/-- The ends of lines. -/
inductive LineEnd
  /-- LF. -/
  | lf
  /-- CR LF. -/
  | crlf

/-- What follows the name of a field. -/
def Field.rest (f : Field) : List Char := f.value.elim [] fun text => ':' :: text.val

/-- The text of a line. -/
def SseLine.chars : SseLine → List Char
  | .blank => []
  | .comment text => ':' :: text.val
  | .field f => f.name.chars ++ f.rest

/-- The text between two line feeds. -/
def rawLine (line : SseLine × LineEnd) : List Char :=
  match line.2 with
  | .lf => line.1.chars
  | .crlf => line.1.chars ++ [carriageReturn]

/-- Texts that each end with a line feed. -/
def renderRaw (rawLines : List (List Char)) : List Char :=
  rawLines.flatMap fun raw => raw ++ [lineBreak]

/-- The text of a stream's lines. -/
def render (lines : List (SseLine × LineEnd)) : List Char := renderRaw (lines.map rawLine)

/-- The value of a field: one space behind the colon is not part of it. -/
def Field.contents (f : Field) : List Char :=
  match f.value with
  | none => []
  | some text => if text.val.head? = some ' ' then text.val.tail else text.val

/-- The fields of a name. -/
def Field.isData (f : Field) : Bool := match f.name with
  | .data => true
  | .event => false

/-- The name of an event: the last `event` field says it, and `message` stands for none. -/
def eventType (fields : List Field) : List Char :=
  match ((fields.filter fun f => !f.isData).getLast?.map Field.contents).getD [] with
  | [] => "message".toList
  | name => name

/-- The data of an event, line by line. -/
def eventData (fields : List Field) : List (List Char) :=
  (fields.filter Field.isData).map Field.contents

/-- The event of a group of fields, where its data is JSON. -/
def grammarEvent (fields : List Field) : Option (SseEvent ν) :=
  if eventData fields = [] then none
  else (parse numberOf (joinLines (eventData fields))).map fun data => ⟨eventType fields, data⟩

/-- The groups of fields that blank lines end, after the fields of an unfinished one. -/
def groupsFrom (fields : List Field) : List (SseLine × LineEnd) → List (List Field)
  | [] => []
  | (.blank, _) :: rest =>
    if fields = [] then groupsFrom [] rest else fields :: groupsFrom [] rest
  | (.comment _, _) :: rest => groupsFrom fields rest
  | (.field f, _) :: rest => groupsFrom (fields ++ [f]) rest

/-- The groups of a stream. -/
def groups (lines : List (SseLine × LineEnd)) : List (List Field) := groupsFrom [] lines

/-- The events of a stream whose data is JSON. -/
def grammarEvents (lines : List (SseLine × LineEnd)) : List (SseEvent ν) :=
  (groups lines).filterMap (grammarEvent numberOf)

end FactoryServer.ServerSentEvents
