import FactoryServer.TextCodes

/-!
# Reading JSON texts

A text is cut into tokens character by character, and the tokens are put together on a
stack of unfinished arrays and objects. A line break ends every token, so a text of several
lines has the tokens of its lines, one after another, and spaces and tabs at the beginning
of a line do not matter.
-/

namespace FactoryServer.JsonReading

open TextCodes

/-- The tokens of a text. -/
inductive Token
  /-- A bracket, a brace, a colon or a comma. -/
  | mark (c : Char)
  /-- A string, by its code units. -/
  | text (units : List ℕ)
  /-- `null`, `true`, `false` or a number, as it is written. -/
  | scalar (chars : List Char)

/-- Where the reader stands between two characters. -/
inductive Mode
  /-- Outside the tokens. -/
  | between
  /-- In a string, after the given code units. -/
  | inText (units : List ℕ)
  /-- After a backslash. -/
  | escaped (units : List ℕ)
  /-- After `\u` and some of its digits. -/
  | unicode (units : List ℕ) (left code : ℕ)
  /-- In a word or a number. -/
  | inScalar (chars : List Char)

/-! ## Characters -/

/-- The white space of JSON. -/
def isSpace (c : Char) : Bool := [0x09, 0x0A, 0x0D, 0x20].contains c.toNat

/-- The characters that are tokens. -/
def isMark (c : Char) : Bool := ['[', ']', '{', '}', ':', ','].contains c

/-- Digits with at least one among them. -/
def isDigits (chars : List Char) : Bool := !chars.isEmpty && chars.all Char.isDigit

/-- The digits before the point. -/
def isInteger (chars : List Char) : Bool :=
  isDigits chars && (chars.head? != some '0' || chars.length == 1)

/-- The text after `e` or `E`. -/
def isExponent : List Char → Bool
  | '+' :: digits => isDigits digits
  | '-' :: digits => isDigits digits
  | digits => isDigits digits

/-- What stands before and behind the first of some characters. -/
def cutAt (marks chars : List Char) : List Char × Option (List Char) :=
  let before := chars.takeWhile fun c => !marks.contains c
  (before, (chars.drop before.length).tail?)

/-- A number without its sign. -/
def isUnsigned (chars : List Char) : Bool :=
  let exponent := cutAt ['e', 'E'] chars
  let fraction := cutAt ['.'] exponent.1
  isInteger fraction.1 && fraction.2.all isDigits && exponent.2.all isExponent

/-- A number. -/
def isNumber : List Char → Bool
  | '-' :: chars => isUnsigned chars
  | chars => isUnsigned chars

/-- A word or a number of JSON. -/
def isScalar (chars : List Char) : Bool :=
  ["null".toList, "true".toList, "false".toList].contains chars || isNumber chars

/-- The value of a hexadecimal digit. -/
def hexValue (c : Char) : Option ℕ :=
  if c.isDigit then some (c.toNat - '0'.toNat)
  else if 'a' ≤ c ∧ c ≤ 'f' then some (c.toNat - 'a'.toNat + 10)
  else if 'A' ≤ c ∧ c ≤ 'F' then some (c.toNat - 'A'.toNat + 10)
  else none

/-- The code unit of an escape of one character. -/
def escapeUnit (c : Char) : Option ℕ :=
  if c = quoteMark ∨ c = backslash ∨ c = '/' then some c.toNat
  else if c = 'b' then some 8
  else if c = 'f' then some 12
  else if c = 'n' then some 10
  else if c = 'r' then some 13
  else if c = 't' then some 9
  else none

/-! ## Tokens -/

/-- A character outside the tokens. -/
def begin (c : Char) : List Token × Mode :=
  if isSpace c then ([], .between)
  else if isMark c then ([.mark c], .between)
  else if c = quoteMark then ([], .inText [])
  else ([], .inScalar [c])

/-- One character: the tokens it ends and where it leads. -/
def step : Mode → Char → Option (List Token × Mode)
  | .between, c => some (begin c)
  | .inText units, c =>
    if c = quoteMark then some ([.text units], .between)
    else if c = backslash then some ([], .escaped units)
    else if c.toNat < 0x20 then none
    else some ([], .inText (units ++ unitsOf c))
  | .escaped units, c =>
    if c = 'u' then some ([], .unicode units 4 0)
    else (escapeUnit c).map fun unit => ([], .inText (units ++ [unit]))
  | .unicode units left code, c =>
    (hexValue c).map fun digit =>
      if left = 1 then ([], .inText (units ++ [code * 16 + digit]))
      else ([], .unicode units (left - 1) (code * 16 + digit))
  | .inScalar chars, c =>
    if isSpace c || isMark c || c == quoteMark then
      if isScalar chars then some (.scalar chars :: (begin c).1, (begin c).2) else none
    else some ([], .inScalar (chars ++ [c]))

/-- Read characters from where the reader stands. -/
def feed (mode : Mode) : List Char → Option (List Token × Mode)
  | [] => some ([], mode)
  | c :: rest =>
    (step mode c).bind fun read =>
      (feed read.2 rest).map fun more => (read.1 ++ more.1, more.2)

/-- The tokens of a text, the last of which ends with it. -/
def tokensOf (text : List Char) : Option (List Token) :=
  (feed .between (text ++ [lineBreak])).map Prod.fst

/-! ## Values -/

/-- The values of JSON, with numbers of some type. -/
inductive Parsed (ν : Type)
  /-- `null`. -/
  | null
  /-- A truth value. -/
  | bool (value : Bool)
  /-- A number. -/
  | num (value : ν)
  /-- A string, by its code units. -/
  | text (units : List ℕ)
  /-- An array. -/
  | arr (items : List (Parsed ν))
  /-- An object, its properties in the order of their first appearance. -/
  | obj (fields : List (List ℕ × Parsed ν))

variable {ν : Type}

/-- The unfinished arrays and objects around a value. -/
inductive Frame (ν : Type)
  /-- An array with its elements so far. -/
  | arr (items : List (Parsed ν))
  /-- An object with its properties so far and the key that was read last. -/
  | obj (fields : List (List ℕ × Parsed ν)) (key : List ℕ)

/-- What is read next. -/
inductive Reading (ν : Type)
  /-- A value, or the end of an empty array. -/
  | value (stack : List (Frame ν)) (mayClose : Bool)
  /-- A key, or the end of an empty object. -/
  | key (stack : List (Frame ν)) (mayClose : Bool)
  /-- A colon. -/
  | colon (stack : List (Frame ν))
  /-- A comma or the end of the innermost array or object. -/
  | after (stack : List (Frame ν))
  /-- Nothing: the value is complete. -/
  | done (value : Parsed ν)

/-- A property is set; a repeated key keeps its place. -/
def assign (fields : List (List ℕ × Parsed ν)) (key : List ℕ) (value : Parsed ν) :
    List (List ℕ × Parsed ν) :=
  if fields.any fun field => field.1 == key then
    fields.map fun field => if field.1 = key then (key, value) else field
  else fields ++ [(key, value)]

/-- A value is complete. -/
def finish (value : Parsed ν) : List (Frame ν) → Reading ν
  | [] => .done value
  | .arr items :: rest => .after (.arr (items ++ [value]) :: rest)
  | .obj fields key :: rest => .after (.obj (assign fields key value) key :: rest)

/-- The value of a word or a number; `numberOf` is the double that a number denotes. -/
def scalarValue (numberOf : List Char → ν) (chars : List Char) : Parsed ν :=
  if chars = "null".toList then .null
  else if chars = "true".toList then .bool true
  else if chars = "false".toList then .bool false
  else .num (numberOf chars)

/-- Read one token. -/
def readToken (numberOf : List Char → ν) : Reading ν → Token → Option (Reading ν)
  | .value stack _, .scalar chars => some (finish (scalarValue numberOf chars) stack)
  | .value stack _, .text units => some (finish (.text units) stack)
  | .value stack _, .mark '[' => some (.value (.arr [] :: stack) true)
  | .value stack _, .mark '{' => some (.key (.obj [] [] :: stack) true)
  | .value (.arr items :: stack) true, .mark ']' => some (finish (.arr items) stack)
  | .key (.obj fields _ :: stack) _, .text units => some (.colon (.obj fields units :: stack))
  | .key (.obj fields _ :: stack) true, .mark '}' => some (finish (.obj fields) stack)
  | .colon stack, .mark ':' => some (.value stack false)
  | .after (.arr items :: stack), .mark ',' => some (.value (.arr items :: stack) false)
  | .after (.arr items :: stack), .mark ']' => some (finish (.arr items) stack)
  | .after (.obj fields key :: stack), .mark ',' => some (.key (.obj fields key :: stack) false)
  | .after (.obj fields _ :: stack), .mark '}' => some (finish (.obj fields) stack)
  | _, _ => none

/-- The complete value. -/
def Reading.result : Reading ν → Option (Parsed ν)
  | .done complete => some complete
  | _ => none

/-- The value of a sequence of tokens. -/
def valueOf (numberOf : List Char → ν) (tokens : List Token) : Option (Parsed ν) :=
  (tokens.foldlM (readToken numberOf) (.value [] false)).bind Reading.result

/-- `JSON.parse`, with no value where it throws. -/
def parse (numberOf : List Char → ν) (text : List Char) : Option (Parsed ν) :=
  (tokensOf text).bind (valueOf numberOf)

/-! ## Lines -/

/-- What is read before a text is read comes first. -/
theorem feed_append (mode : Mode) (text more : List Char) :
    feed mode (text ++ more) = (feed mode text).bind fun read =>
      (feed read.2 more).map fun next => (read.1 ++ next.1, next.2) := by
  induction text generalizing mode with
  | nil => simp [feed]
  | cons c text ih =>
    rw [List.cons_append, feed, feed]
    cases hstep : step mode c with
    | none => rfl
    | some read =>
      simp only [Option.bind_some, ih]
      cases feed read.2 text with
      | none => rfl
      | some next => simp [Function.comp_def]

/-- A line break ends every token. -/
theorem step_lineBreak {mode : Mode} {read : List Token × Mode}
    (h : step mode lineBreak = some read) : read.2 = .between := by
  cases mode with
  | between =>
    have hread := Option.some.inj h
    rw [← hread]
    rfl
  | inText units => exact absurd h nofun
  | escaped units => exact absurd h nofun
  | unicode units left code => exact absurd h nofun
  | inScalar chars =>
    have hbreak : (isSpace lineBreak || isMark lineBreak || lineBreak == quoteMark) = true := by
      decide
    simp only [step, hbreak, if_true] at h
    split_ifs at h with hscalar
    rw [← Option.some.inj h]
    rfl

/-- After a line the reader stands outside the tokens. -/
theorem feed_line {mode : Mode} {line : List Char} {read : List Token × Mode}
    (h : feed mode (line ++ [lineBreak]) = some read) : read.2 = .between := by
  rw [feed_append] at h
  obtain ⟨before, -, hafter⟩ := Option.bind_eq_some_iff.mp h
  obtain ⟨last, hlast, rfl⟩ := Option.map_eq_some_iff.mp hafter
  obtain ⟨ended, hstep, hnil⟩ := Option.bind_eq_some_iff.mp hlast
  obtain ⟨rest, hrest, rfl⟩ := Option.map_eq_some_iff.mp hnil
  rw [← Option.some.inj hrest]
  have hmode : ended.2 = .between := step_lineBreak hstep
  exact hmode

/-- The tokens of two pieces, of which the first ends with its line. -/
theorem tokensOf_append (line text : List Char) :
    tokensOf (line ++ lineBreak :: text) =
      (tokensOf line).bind fun first => (tokensOf text).map fun more => first ++ more := by
  have hsplit : line ++ lineBreak :: text ++ [lineBreak] =
      (line ++ [lineBreak]) ++ (text ++ [lineBreak]) := by simp
  unfold tokensOf
  rw [hsplit, feed_append]
  cases hline : feed .between (line ++ [lineBreak]) with
  | none => rfl
  | some read =>
    simp only [Option.bind_some, Option.map_some, feed_line hline, Option.map_map]
    rfl

/-- An empty text has no tokens. -/
theorem tokensOf_nil : tokensOf [] = some [] := rfl

/-- The tokens of several lines. -/
def linesTokens (lines : List (List Char)) : Option (List Token) :=
  match lines with
  | [] => some []
  | line :: rest =>
    (tokensOf line).bind fun first => (linesTokens rest).map fun more => first ++ more

/-- Joined lines have the tokens of the lines. -/
theorem tokensOf_joinLines (lines : List (List Char)) :
    tokensOf (joinLines lines) = linesTokens lines := by
  induction lines with
  | nil => rfl
  | cons line lines ih =>
    cases lines with
    | nil =>
      simp [joinLines, linesTokens]
    | cons next rest =>
      have hjoin : joinLines (line :: next :: rest) =
          line ++ lineBreak :: joinLines (next :: rest) := by
        simp [joinLines, List.intercalate]
      rw [hjoin, tokensOf_append, ih]
      rfl

/-- A space or a tab at the beginning of a text does not matter. -/
theorem tokensOf_space {c : Char} (h : isSpace c = true) (text : List Char) :
    tokensOf (c :: text) = tokensOf text := by
  have hstep : step .between c = some ([], .between) := by
    rw [step, begin, if_pos h]
  unfold tokensOf
  rw [List.cons_append, feed, hstep, Option.bind_some, Option.map_map]
  rfl

/-- A number without its sign begins with a digit. -/
theorem isUnsigned_cons {c : Char} (h : c.isDigit = false) (chars : List Char) :
    isUnsigned (c :: chars) = false := by
  have hcut : ∀ marks rest, isDigits (cutAt marks (c :: rest)).1 = false := by
    intro marks rest
    unfold cutAt isDigits
    rw [List.takeWhile_cons]
    split_ifs
    · simp [h]
    · rfl
  have hnil : ∀ marks, isDigits (cutAt marks []).1 = false := fun marks => rfl
  have hinteger : isInteger (cutAt ['.'] (cutAt ['e', 'E'] (c :: chars)).1).1 = false := by
    unfold isInteger
    rw [Bool.and_eq_false_iff]
    refine Or.inl ?_
    conv => lhs; arg 1; arg 1; arg 2; rw [cutAt, List.takeWhile_cons]
    dsimp only
    split_ifs
    · exact hcut _ _
    · exact hnil _
  unfold isUnsigned
  simp only [hinteger, Bool.false_and]

/-- White space is no printed character of ASCII. -/
theorem isTrimmed_range {c : Char} (h : isTrimmed c = true) : c.toNat < 33 ∨ 126 < c.toNat := by
  unfold isTrimmed at h
  simp only [List.contains_cons, List.contains_nil, Bool.or_eq_true, beq_iff_eq,
    Bool.and_eq_true, decide_eq_true_eq, Bool.false_eq_true, or_false] at h
  omega

/-- A printed character of ASCII is not what a white space is. -/
theorem isTrimmed_ne {c d : Char} (h : isTrimmed c = true) (hd : 33 ≤ d.toNat ∧ d.toNat ≤ 126) :
    c ≠ d := by
  rintro rfl
  have hrange := isTrimmed_range h
  omega

/-- No word and no number begins with white space. -/
theorem isScalar_foreign {c : Char} (h : isTrimmed c = true) (chars : List Char) :
    isScalar (c :: chars) = false := by
  have hdigit : c.isDigit = false := by
    have hrange := isTrimmed_range h
    have hzero : '0'.val.toNat = 48 := rfl
    have hnine : '9'.val.toNat = 57 := rfl
    have hval : c.toNat = c.val.toNat := rfl
    simp only [Char.isDigit, Bool.and_eq_false_iff, decide_eq_false_iff_not,
      UInt32.le_iff_toNat_le, ge_iff_le]
    omega
  have hminus : c ≠ '-' := isTrimmed_ne h (by decide)
  have hnumber : isNumber (c :: chars) = false := by
    rw [isNumber]
    · exact isUnsigned_cons hdigit chars
    · intro rest heq
      exact hminus (List.cons.inj heq).1
  have hn : c ≠ 'n' := isTrimmed_ne h (by decide)
  have ht : c ≠ 't' := isTrimmed_ne h (by decide)
  have hf : c ≠ 'f' := isTrimmed_ne h (by decide)
  simp [isScalar, hnumber, hn, ht, hf]

/-- A word that cannot be ended makes the text unreadable. -/
theorem feed_unended {c : Char} (h : ∀ chars, isScalar (c :: chars) = false)
    (chars text : List Char) : feed (.inScalar (c :: chars)) (text ++ [lineBreak]) = none := by
  have hends : ∀ d chars, (isSpace d || isMark d || d == quoteMark) = true →
      step (.inScalar (c :: chars)) d = none := by
    intro d chars hd
    rw [step, if_pos hd, h]
    rfl
  induction text generalizing chars with
  | nil =>
    rw [List.nil_append, feed, hends lineBreak chars (by decide)]
    rfl
  | cons d text ih =>
    rw [List.cons_append, feed]
    by_cases hd : (isSpace d || isMark d || d == quoteMark) = true
    · rw [hends d chars hd]
      rfl
    · rw [step, if_neg hd, Option.bind_some, List.cons_append, ih]
      rfl

/-- White space of another kind at the beginning of a text makes it unreadable. -/
theorem tokensOf_foreign {c : Char} (htrim : isTrimmed c = true) (h : isSpace c = false)
    (text : List Char) : tokensOf (c :: text) = none := by
  have hmark : isMark c = false := by
    have hne : ∀ d : Char, 33 ≤ d.toNat ∧ d.toNat ≤ 126 → (c == d) = false := fun d hd =>
      beq_false_of_ne (isTrimmed_ne htrim hd)
    unfold isMark
    simp only [List.contains_cons, List.contains_nil, Bool.or_false]
    rw [hne '[' (by decide), hne ']' (by decide), hne '{' (by decide), hne '}' (by decide),
      hne ':' (by decide), hne ',' (by decide)]
    rfl
  have hquote : c ≠ quoteMark := isTrimmed_ne htrim (by decide)
  have hbegin : begin c = ([], .inScalar [c]) := by
    unfold begin
    simp [h, hmark, hquote]
  unfold tokensOf
  rw [List.cons_append, feed, step, hbegin, Option.bind_some,
    feed_unended (isScalar_foreign htrim) [] text]
  rfl

end FactoryServer.JsonReading
