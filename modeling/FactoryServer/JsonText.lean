import FactoryServer.JsonValue
import FactoryServer.TextCodes

/-!
# The text of a JSON value

The text of a value can be read back: a value is followed by a comma or by a closing
bracket, its first character tells what kind of value it is, and a number ends before the
first character that is neither a digit nor a sign.
-/

namespace FactoryServer.JsonText

open JsonValue TextCodes

mutual

/-- `JSON.stringify`. -/
def stringify : Json → List Char
  | .null => ['n', 'u', 'l', 'l']
  | .bool true => ['t', 'r', 'u', 'e']
  | .bool false => ['f', 'a', 'l', 's', 'e']
  | .num n => jsonNumber n
  | .str s => jsonString s
  | .arr [] => ['[', ']']
  | .arr (item :: rest) => '[' :: (stringify item ++ itemsTail rest)
  | .obj [] => ['{', '}']
  | .obj ((key, value) :: rest) =>
    '{' :: (jsonString key ++ ':' :: (stringify value ++ fieldsTail rest))

/-- What follows an element of an array. -/
def itemsTail : List Json → List Char
  | [] => [']']
  | item :: rest => ',' :: (stringify item ++ itemsTail rest)

/-- What follows a property of an object. -/
def fieldsTail : List (String × Json) → List Char
  | [] => ['}']
  | (key, value) :: rest =>
    ',' :: (jsonString key ++ ':' :: (stringify value ++ fieldsTail rest))

end

/-! ## First characters -/

/-- The kinds of values. -/
def kindOf : Json → ℕ
  | .null => 0
  | .bool _ => 1
  | .num _ => 2
  | .str _ => 3
  | .arr _ => 4
  | .obj _ => 5

/-- A character of a number. -/
def isNumeral (c : Char) : Bool := c.isDigit || c = '-'

/-- The kind of value that a first character tells. -/
def kindOfChar (c : Char) : ℕ :=
  if isNumeral c then 2
  else if c = 'n' then 0
  else if c = 't' || c = 'f' then 1
  else if c = quoteMark then 3
  else if c = '[' then 4
  else if c = '{' then 5
  else 6

/-- What may follow a value. -/
def Stops (c : Char) : Prop := c = ',' ∨ c = ']' ∨ c = '}'

/-- The characters of a number. -/
theorem isNumeral_of_mem {c : Char} {n : ℤ} (h : c ∈ jsonNumber n) : isNumeral c = true := by
  have hdigits : ∀ m : ℕ, c ∈ Nat.toDigits 10 m → isNumeral c = true := by
    intro m hin
    rw [isNumeral, Nat.isDigit_of_mem_toDigits (by decide) (by decide) hin, Bool.true_or]
  cases n with
  | ofNat m => exact hdigits m h
  | negSucc m =>
    obtain rfl | hin := List.mem_cons.mp h
    · rfl
    · exact hdigits (m + 1) hin

/-- What follows a value is no part of a number. -/
theorem isNumeral_stops {c : Char} (h : Stops c) : isNumeral c = false := by
  obtain rfl | rfl | rfl := h <;> rfl

/-- A number is not empty. -/
theorem jsonNumber_ne_nil (n : ℤ) : jsonNumber n ≠ [] := by
  cases n with
  | ofNat m => exact Nat.toDigits_ne_nil
  | negSucc m => exact List.cons_ne_nil _ _

/-- The first character of a value tells its kind. -/
theorem stringify_head (value : Json) :
    ∃ first rest, stringify value = first :: rest ∧ kindOfChar first = kindOf value := by
  cases value with
  | null => exact ⟨_, _, by rw [stringify], rfl⟩
  | bool b => cases b <;> exact ⟨_, _, by rw [stringify], rfl⟩
  | num n =>
    cases hnumber : jsonNumber n with
    | nil => exact absurd hnumber (jsonNumber_ne_nil n)
    | cons first rest =>
      have hnumeral : isNumeral first = true :=
        isNumeral_of_mem (hnumber ▸ List.mem_cons_self)
      exact ⟨first, rest, by rw [stringify, hnumber], by rw [kindOfChar, if_pos hnumeral]; rfl⟩
  | str s => exact ⟨_, _, by rw [stringify, jsonString], rfl⟩
  | arr items => cases items <;> exact ⟨_, _, by rw [stringify], rfl⟩
  | obj fields =>
    cases fields with
    | nil => exact ⟨_, _, by rw [stringify], rfl⟩
    | cons field rest => exact ⟨_, _, by rw [stringify], rfl⟩

/-- What follows an element stops it. -/
theorem itemsTail_head (items : List Json) :
    ∃ first rest, itemsTail items = first :: rest ∧ Stops first := by
  cases items with
  | nil => exact ⟨_, _, by rw [itemsTail], .inr (.inl rfl)⟩
  | cons item rest => exact ⟨_, _, by rw [itemsTail], .inl rfl⟩

/-- What follows a property stops it. -/
theorem fieldsTail_head (fields : List (String × Json)) :
    ∃ first rest, fieldsTail fields = first :: rest ∧ Stops first := by
  cases fields with
  | nil => exact ⟨_, _, by rw [fieldsTail], .inr (.inr rfl)⟩
  | cons field rest => exact ⟨_, _, by rw [fieldsTail], .inl rfl⟩

/-- A number can be read up to what stops it. -/
theorem jsonNumber_read {m n : ℤ} {c c' : Char} {r r' : List Char} (hc : Stops c)
    (hc' : Stops c') (heq : jsonNumber m ++ c :: r = jsonNumber n ++ c' :: r') :
    m = n ∧ c :: r = c' :: r' := by
  have hread : ∀ (k : ℤ) {d : Char} (t : List Char), Stops d →
      (jsonNumber k ++ d :: t).takeWhile isNumeral = jsonNumber k := by
    intro k d t hd
    rw [List.takeWhile_append_of_pos fun _ hin => isNumeral_of_mem hin,
      List.takeWhile_cons_of_neg (by rw [isNumeral_stops hd]; exact Bool.false_ne_true),
      List.append_nil]
  have hsame : jsonNumber m = jsonNumber n := by
    rw [← hread m r hc, heq, hread n r' hc']
  rw [hsame] at heq
  exact ⟨jsonNumber_injective hsame, List.append_cancel_left heq⟩

/-- Values with one text, up to what stops them, are of one kind. -/
theorem kind_of_text {a b : Json} {r r' : List Char} (heq : stringify a ++ r = stringify b ++ r') :
    kindOf a = kindOf b := by
  obtain ⟨first, rest, hfirst, hkind⟩ := stringify_head a
  obtain ⟨other, others, hother, hkind'⟩ := stringify_head b
  rw [hfirst, hother] at heq
  have hsame : first = other := (List.cons.inj heq).1
  rw [← hkind, ← hkind', hsame]

/-- A value does not begin with what stops one. -/
theorem stringify_ne_stop {value : Json} {c : Char} {r r' : List Char} (hc : Stops c) :
    stringify value ++ r ≠ c :: r' := by
  obtain ⟨first, rest, hfirst, hkind⟩ := stringify_head value
  intro heq
  rw [hfirst] at heq
  have hsame : first = c := (List.cons.inj heq).1
  have hsix : kindOfChar c = 6 := by obtain rfl | rfl | rfl := hc <;> rfl
  rw [hsame, hsix] at hkind
  cases value <;> cases hkind

/-! ## Reading a text -/

/-- What is read of a value and of what follows it. -/
def Reads (a b : Json) : Prop :=
  ∀ (c c' : Char) (r r' : List Char), Stops c → Stops c' →
    stringify a ++ c :: r = stringify b ++ c' :: r' → a = b ∧ c :: r = c' :: r'

/-- A value and the tail of what it is in. -/
theorem Reads.tail {a b : Json} (h : Reads a b) {s s' : List Char}
    (hs : ∃ first rest, s = first :: rest ∧ Stops first)
    (hs' : ∃ first rest, s' = first :: rest ∧ Stops first)
    (heq : stringify a ++ s = stringify b ++ s') : a = b ∧ s = s' := by
  obtain ⟨c, r, rfl, hc⟩ := hs
  obtain ⟨c', r', rfl, hc'⟩ := hs'
  exact h c c' r r' hc hc' heq

/-- A text that stops goes on as one that stops. -/
theorem stops_append {s : List Char} (t : List Char)
    (hs : ∃ first rest, s = first :: rest ∧ Stops first) :
    ∃ first rest, s ++ t = first :: rest ∧ Stops first := by
  obtain ⟨c, r, rfl, hc⟩ := hs
  exact ⟨c, r ++ t, rfl, hc⟩

/-- A property can be read, where its value can. -/
theorem property_read {key key' : String} {a b : Json} (h : Reads a b) {s s' : List Char}
    (hs : ∃ first rest, s = first :: rest ∧ Stops first)
    (hs' : ∃ first rest, s' = first :: rest ∧ Stops first)
    (heq : jsonString key ++ ':' :: (stringify a ++ s) =
      jsonString key' ++ ':' :: (stringify b ++ s')) : key = key' ∧ a = b ∧ s = s' := by
  obtain ⟨hkey, hrest⟩ := jsonString_prefixFree.append_inj heq
  exact ⟨hkey, h.tail hs hs' (List.cons.inj hrest).2⟩

/-- Two values that are neither arrays nor objects. -/
theorem scalar_read {a b : Json} (harr : ∀ items, a ≠ .arr items) (hobj : ∀ fields, a ≠ .obj fields) :
    Reads a b := by
  intro c c' r r' hc hc' heq
  have hkind := kind_of_text heq
  cases a with
  | null =>
    cases b with
    | null => exact ⟨rfl, List.append_cancel_left heq⟩
    | _ => cases hkind
  | bool x =>
    cases b with
    | bool y => cases x <;> cases y <;> simp [stringify] at heq ⊢ <;> exact heq
    | _ => cases hkind
  | num m =>
    cases b with
    | num n =>
      simp only [stringify] at heq
      obtain ⟨hnumber, hrest⟩ := jsonNumber_read hc hc' heq
      exact ⟨congrArg Json.num hnumber, hrest⟩
    | _ => cases hkind
  | str s =>
    cases b with
    | str t =>
      simp only [stringify] at heq
      obtain ⟨htext, hrest⟩ := jsonString_prefixFree.append_inj heq
      exact ⟨congrArg Json.str htext, hrest⟩
    | _ => cases hkind
  | arr items => exact absurd rfl (harr items)
  | obj fields => exact absurd rfl (hobj fields)

mutual

/-- A value can be read up to what stops it. -/
theorem stringify_read : ∀ a b : Json, Reads a b
  | .null, b => scalar_read nofun nofun
  | .bool _, b => scalar_read nofun nofun
  | .num _, b => scalar_read nofun nofun
  | .str _, b => scalar_read nofun nofun
  | .arr [], b => by
    intro c c' r r' hc hc' heq
    have hkind := kind_of_text heq
    cases b with
    | arr others =>
      cases others with
      | nil => exact ⟨rfl, List.append_cancel_left heq⟩
      | cons other others =>
        simp only [stringify, List.cons_append, List.nil_append, List.append_assoc,
          List.cons.injEq, true_and] at heq
        exact absurd heq.symm (stringify_ne_stop (.inr (.inl rfl)))
    | _ => cases hkind
  | .arr (item :: rest), b => by
    intro c c' r r' hc hc' heq
    have hkind := kind_of_text heq
    cases b with
    | arr others =>
      cases others with
      | nil =>
        simp only [stringify, List.cons_append, List.nil_append, List.append_assoc,
          List.cons.injEq, true_and] at heq
        exact absurd heq (stringify_ne_stop (.inr (.inl rfl)))
      | cons other others =>
        simp only [stringify, List.cons_append, List.append_assoc, List.cons.injEq,
          true_and] at heq
        obtain ⟨hitem, htail⟩ := (stringify_read item other).tail
          (stops_append _ (itemsTail_head rest)) (stops_append _ (itemsTail_head others)) heq
        obtain ⟨hrest, hend⟩ := itemsTail_read rest others htail
        exact ⟨by rw [hitem, hrest], hend⟩
    | _ => cases hkind
  | .obj [], b => by
    intro c c' r r' hc hc' heq
    have hkind := kind_of_text heq
    cases b with
    | obj others =>
      cases others with
      | nil => exact ⟨rfl, List.append_cancel_left heq⟩
      | cons other others =>
        simp only [stringify, List.cons_append, List.nil_append, List.append_assoc, jsonString,
          List.cons.injEq, true_and] at heq
        exact absurd heq.1 (by decide)
    | _ => cases hkind
  | .obj ((key, value) :: rest), b => by
    intro c c' r r' hc hc' heq
    have hkind := kind_of_text heq
    cases b with
    | obj others =>
      cases others with
      | nil =>
        simp only [stringify, List.cons_append, List.nil_append, List.append_assoc, jsonString,
          List.cons.injEq, true_and] at heq
        exact absurd heq.1 (by decide)
      | cons other others =>
        simp only [stringify, List.cons_append, List.append_assoc, List.cons.injEq,
          true_and] at heq
        obtain ⟨hkey, hvalue, htail⟩ := property_read (stringify_read value other.2)
          (stops_append _ (fieldsTail_head rest)) (stops_append _ (fieldsTail_head others)) heq
        obtain ⟨hrest, hend⟩ := fieldsTail_read rest others htail
        exact ⟨by rw [hkey, hvalue, hrest], hend⟩
    | _ => cases hkind

/-- The elements of an array can be read. -/
theorem itemsTail_read : ∀ (items others : List Json) {r r' : List Char},
    itemsTail items ++ r = itemsTail others ++ r' → items = others ∧ r = r'
  | [], [], r, r', heq => ⟨rfl, List.append_cancel_left heq⟩
  | [], other :: others, r, r', heq => by
    simp only [itemsTail, List.cons_append, List.cons.injEq] at heq
    exact absurd heq.1 (by decide)
  | item :: rest, [], r, r', heq => by
    simp only [itemsTail, List.cons_append, List.cons.injEq] at heq
    exact absurd heq.1 (by decide)
  | item :: rest, other :: others, r, r', heq => by
    simp only [itemsTail, List.cons_append, List.append_assoc, List.cons.injEq, true_and] at heq
    obtain ⟨hitem, htail⟩ := (stringify_read item other).tail
      (stops_append _ (itemsTail_head rest)) (stops_append _ (itemsTail_head others)) heq
    obtain ⟨hrest, hend⟩ := itemsTail_read rest others htail
    exact ⟨by rw [hitem, hrest], hend⟩

/-- The properties of an object can be read. -/
theorem fieldsTail_read : ∀ (fields others : List (String × Json)) {r r' : List Char},
    fieldsTail fields ++ r = fieldsTail others ++ r' → fields = others ∧ r = r'
  | [], [], r, r', heq => ⟨rfl, List.append_cancel_left heq⟩
  | [], other :: others, r, r', heq => by
    simp only [fieldsTail, List.cons_append, List.cons.injEq] at heq
    exact absurd heq.1 (by decide)
  | (key, value) :: rest, [], r, r', heq => by
    simp only [fieldsTail, List.cons_append, List.cons.injEq] at heq
    exact absurd heq.1 (by decide)
  | (key, value) :: rest, (other, found) :: others, r, r', heq => by
    simp only [fieldsTail, List.cons_append, List.append_assoc, List.cons.injEq, true_and] at heq
    obtain ⟨hkey, hvalue, htail⟩ := property_read (stringify_read value found)
      (stops_append _ (fieldsTail_head rest)) (stops_append _ (fieldsTail_head others)) heq
    obtain ⟨hrest, hend⟩ := fieldsTail_read rest others htail
    exact ⟨by rw [hkey, hvalue, hrest], hend⟩

end

/-- The text of a value determines it. -/
theorem stringify_injective : Function.Injective stringify := by
  intro a b heq
  have hstops : Stops ']' := .inr (.inl rfl)
  exact (stringify_read a b ']' ']' [] [] hstops hstops (congrArg (· ++ [']']) heq)).1

end FactoryServer.JsonText
