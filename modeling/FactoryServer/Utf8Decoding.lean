import Mathlib.Data.List.Basic

/-!
# Decoding UTF-8 in pieces

A streaming decoder reads one byte after another and keeps what it needs of an unfinished
character. A byte that no character continues with gives the replacement character, and a
byte order mark at the beginning of the stream is dropped. Pieces decode as the whole does.
-/

namespace FactoryServer.Utf8Decoding

/-- What the decoder keeps between two bytes. -/
structure Decoder where
  /-- How many bytes the unfinished character still needs. -/
  needed : ℕ := 0
  /-- The bits read of it. -/
  point : ℕ := 0
  /-- The smallest byte that continues it. -/
  lower : ℕ := 0x80
  /-- The greatest byte that continues it. -/
  upper : ℕ := 0xBF
  /-- A character has been read. -/
  begun : Bool := false

/-- The replacement character. -/
def replacement : Char := Char.ofNat 0xFFFD

/-- The byte order mark. -/
def byteOrderMark : Char := Char.ofNat 0xFEFF

/-- A character is put out, unless it is the byte order mark of the stream. -/
def Decoder.emit (d : Decoder) (c : Char) : Decoder × List Char :=
  ({ begun := true }, if !d.begun && c = byteOrderMark then [] else [c])

/-- The first byte of a character. -/
def Decoder.start (d : Decoder) (byte : ℕ) : Decoder × List Char :=
  if byte ≤ 0x7F then d.emit (Char.ofNat byte)
  else if 0xC2 ≤ byte ∧ byte ≤ 0xDF then
    ({ needed := 1, point := byte % 0x20, begun := d.begun }, [])
  else if 0xE0 ≤ byte ∧ byte ≤ 0xEF then
    ({ needed := 2, point := byte % 0x10, lower := if byte = 0xE0 then 0xA0 else 0x80,
       upper := if byte = 0xED then 0x9F else 0xBF, begun := d.begun }, [])
  else if 0xF0 ≤ byte ∧ byte ≤ 0xF4 then
    ({ needed := 3, point := byte % 8, lower := if byte = 0xF0 then 0x90 else 0x80,
       upper := if byte = 0xF4 then 0x8F else 0xBF, begun := d.begun }, [])
  else d.emit replacement

/-- One byte. A byte that does not continue the character is read again as a first one. -/
def Decoder.step (d : Decoder) (byte : ℕ) : Decoder × List Char :=
  if d.needed = 0 then d.start byte
  else if byte < d.lower ∨ d.upper < byte then
    let broken := d.emit replacement
    let next := broken.1.start byte
    (next.1, broken.2 ++ next.2)
  else if d.needed = 1 then d.emit (Char.ofNat (d.point * 0x40 + byte % 0x40))
  else
    ({ needed := d.needed - 1, point := d.point * 0x40 + byte % 0x40, begun := d.begun }, [])

/-- `decoder.decode(value, { stream: true })`. -/
def Decoder.decode (d : Decoder) : List UInt8 → Decoder × List Char
  | [] => (d, [])
  | byte :: rest =>
    let read := d.step byte.toNat
    let more := read.1.decode rest
    (more.1, read.2 ++ more.2)

/-- The text of a stream. -/
def decodeText (bytes : List UInt8) : List Char := (Decoder.decode {} bytes).2

/-- Two pieces decode as their concatenation does. -/
theorem Decoder.decode_append (d : Decoder) (bytes more : List UInt8) :
    d.decode (bytes ++ more) =
      (((d.decode bytes).1.decode more).1,
        (d.decode bytes).2 ++ ((d.decode bytes).1.decode more).2) := by
  induction bytes generalizing d with
  | nil => rfl
  | cons byte bytes ih =>
    rw [List.cons_append, Decoder.decode, ih]
    simp only [Decoder.decode, List.append_assoc]

/-- A three-byte character in two pieces, and a byte that continues nothing. -/
example : decodeText [0xE2, 0x82, 0xAC, 0x41, 0xE2, 0x41] =
    [Char.ofNat 0x20AC, 'A', replacement, 'A'] := by decide +kernel

end FactoryServer.Utf8Decoding
