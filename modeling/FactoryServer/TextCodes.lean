import Mathlib.Data.List.Basic
import Mathlib.Data.List.DropRight
import Mathlib.Data.List.Lex
import Mathlib.Data.List.Sort

/-!
# Texts that can be read back

A code is prefix-free where no text is the beginning of another one, and then a
sequence of texts can be taken apart. JSON's strings and UTF-16's code units are such
codes. Lines joined by a line break can be taken apart where none of them contains one,
and a list of texts in the order of their code units depends on the texts alone.
-/

namespace FactoryServer.TextCodes

variable {α β : Type} {code : α → List β}

/-! ## Prefix-free codes -/

/-- No text of the code is the beginning of another one. -/
def PrefixFree (code : α → List β) : Prop := ∀ a b, code a <+: code b → a = b

/-- The first text of a sequence can be read. -/
theorem PrefixFree.append_inj (h : PrefixFree code) {a b : α} {r r' : List β}
    (heq : code a ++ r = code b ++ r') : a = b ∧ r = r' := by
  have hsame : a = b := by
    have hleft : code a <+: code b ++ r' := ⟨r, heq⟩
    rcases List.prefix_or_prefix_of_prefix hleft (List.prefix_append _ _) with hp | hp
    · exact h a b hp
    · exact (h b a hp).symm
  rw [hsame] at heq
  exact ⟨hsame, List.append_cancel_left heq⟩

/-- Sequences of one length can be read. -/
theorem PrefixFree.sequence_inj (h : PrefixFree code) {items others : List α} {r r' : List β}
    (hlength : items.length = others.length)
    (heq : items.flatMap code ++ r = others.flatMap code ++ r') : items = others ∧ r = r' := by
  induction items generalizing others with
  | nil =>
    have hnil := List.length_eq_zero_iff.mp hlength.symm
    subst hnil
    exact ⟨rfl, heq⟩
  | cons item items ih =>
    cases others with
    | nil => exact absurd hlength (Nat.succ_ne_zero _)
    | cons other others =>
      rw [List.flatMap_cons, List.flatMap_cons, List.append_assoc, List.append_assoc] at heq
      obtain ⟨hfirst, hrest⟩ := h.append_inj heq
      obtain ⟨hitems, hends⟩ := ih (Nat.succ.inj hlength) hrest
      exact ⟨by rw [hfirst, hitems], hends⟩

/-- A sequence can be read up to a mark that begins no text. -/
theorem PrefixFree.ended_inj (h : PrefixFree code) {mark : β}
    (hmark : ∀ a, ∃ first rest, code a = first :: rest ∧ first ≠ mark) {items others : List α}
    {r r' : List β} (heq : items.flatMap code ++ mark :: r = others.flatMap code ++ mark :: r') :
    items = others ∧ r = r' := by
  induction items generalizing others with
  | nil =>
    cases others with
    | nil => exact ⟨rfl, (List.cons.inj heq).2⟩
    | cons other others =>
      obtain ⟨first, rest, hcode, hne⟩ := hmark other
      rw [List.flatMap_cons, hcode] at heq
      exact absurd (List.cons.inj heq).1.symm hne
  | cons item items ih =>
    cases others with
    | nil =>
      obtain ⟨first, rest, hcode, hne⟩ := hmark item
      rw [List.flatMap_cons, hcode] at heq
      exact absurd (List.cons.inj heq).1 hne
    | cons other others =>
      rw [List.flatMap_cons, List.flatMap_cons, List.append_assoc, List.append_assoc] at heq
      obtain ⟨hfirst, hrest⟩ := h.append_inj heq
      obtain ⟨hitems, hends⟩ := ih hrest
      exact ⟨by rw [hfirst, hitems], hends⟩

/-! ## JSON strings -/

/-- The quotation mark. -/
def quoteMark : Char := Char.ofNat 34

/-- The backslash. -/
def backslash : Char := Char.ofNat 92

/-- The line break. -/
def lineBreak : Char := Char.ofNat 10

/-- The characters that a JSON string escapes, by their code points. -/
def escapedPoints : List ℕ := 34 :: 92 :: List.range 32

/-- What follows the backslash. -/
def escapeTail (point : ℕ) : List Char :=
  match point with
  | 34 => [quoteMark]
  | 92 => [backslash]
  | 8 => ['b']
  | 9 => ['t']
  | 10 => ['n']
  | 12 => ['f']
  | 13 => ['r']
  | _ => ['u', '0', '0', Nat.digitChar (point / 16), Nat.digitChar (point % 16)]

/-- A character of a JSON string. -/
def jsonChar (c : Char) : List Char :=
  if c.toNat ∈ escapedPoints then backslash :: escapeTail c.toNat else [c]

/-- `JSON.stringify` of a string. -/
def jsonString (s : String) : List Char :=
  quoteMark :: (s.toList.flatMap jsonChar ++ [quoteMark])

/-- No escape is the beginning of another one. -/
theorem escapeTail_prefixFree : ∀ point ∈ escapedPoints, ∀ other ∈ escapedPoints,
    escapeTail point <+: escapeTail other → point = other := by
  decide +kernel

theorem backslash_escaped : backslash.toNat ∈ escapedPoints := by decide

theorem jsonChar_prefixFree : PrefixFree jsonChar := by
  intro c d hprefix
  unfold jsonChar at hprefix
  split_ifs at hprefix with hc hd hd
  · have hpoints := escapeTail_prefixFree _ hc _ hd (List.cons_prefix_cons.mp hprefix).2
    exact Char.toNat_inj.mp hpoints
  · have hslash := (List.cons_prefix_cons.mp hprefix).1
    rw [← hslash] at hd
    exact absurd backslash_escaped hd
  · have hslash := (List.cons_prefix_cons.mp hprefix).1
    rw [hslash] at hc
    exact absurd backslash_escaped hc
  · exact (List.cons_prefix_cons.mp hprefix).1

/-- No character's text begins with a quotation mark. -/
theorem jsonChar_begins (c : Char) :
    ∃ first rest, jsonChar c = first :: rest ∧ first ≠ quoteMark := by
  unfold jsonChar
  split_ifs with h
  · exact ⟨_, _, rfl, by decide⟩
  · refine ⟨_, _, rfl, ?_⟩
    rintro rfl
    exact h (by decide)

theorem jsonString_prefixFree : PrefixFree jsonString := by
  rintro s t ⟨rest, heq⟩
  unfold jsonString at heq
  rw [List.cons_append, List.append_assoc] at heq
  have hlists := jsonChar_prefixFree.ended_inj jsonChar_begins (List.cons.inj heq).2
  exact String.toList_injective hlists.1

/-- A JSON string contains no line break. -/
theorem lineBreak_not_mem_jsonString (s : String) : lineBreak ∉ jsonString s := by
  have hescapes : ∀ point ∈ escapedPoints, lineBreak ∉ escapeTail point := by decide
  have hchar : ∀ c, lineBreak ∉ jsonChar c := by
    intro c hin
    unfold jsonChar at hin
    split_ifs at hin with h
    · rcases List.mem_cons.mp hin with hslash | htail
      · exact absurd hslash (by decide)
      · exact hescapes _ h htail
    · rw [← List.mem_singleton.mp hin] at h
      exact h (by decide)
  intro hin
  rcases List.mem_cons.mp hin with hmark | hin
  · exact absurd hmark (by decide)
  · rcases List.mem_append.mp hin with hbody | hend
    · obtain ⟨c, -, hc⟩ := List.mem_flatMap.mp hbody
      exact hchar c hc
    · exact absurd (List.mem_singleton.mp hend) (by decide)

/-! ## White space -/

/-- The characters that `trim` removes. -/
def isTrimmed (c : Char) : Bool :=
  [0x09, 0x0A, 0x0B, 0x0C, 0x0D, 0x20, 0xA0, 0x1680, 0x2028, 0x2029, 0x202F, 0x205F, 0x3000,
    0xFEFF].contains c.toNat || (0x2000 ≤ c.toNat && c.toNat ≤ 0x200A)

/-- `text.trimStart()`. -/
def trimStart (text : List Char) : List Char := text.dropWhile isTrimmed

/-- `text.trim()`. -/
def trim (text : List Char) : List Char := (trimStart text).rdropWhile isTrimmed

/-! ## JSON numbers -/

/-- `JSON.stringify` of an integer. -/
def jsonNumber : ℤ → List Char
  | .ofNat n => Nat.toDigits 10 n
  | .negSucc n => '-' :: Nat.toDigits 10 (n + 1)

theorem toDigits_injective : Function.Injective (Nat.toDigits 10) := by
  intro m n h
  have hread := congrArg (fun digits => Nat.ofDigitChars 10 digits 0) h
  simpa using hread

/-- A digit is no other character. -/
theorem not_mem_toDigits {c : Char} (h : c.isDigit = false) (n : ℕ) :
    c ∉ Nat.toDigits 10 n := by
  intro hin
  have hdigit := Nat.isDigit_of_mem_toDigits (by decide) (by decide) hin
  exact Bool.false_ne_true (h.symm.trans hdigit)

theorem jsonNumber_injective : Function.Injective jsonNumber := by
  have hsign : ∀ m n : ℕ, Nat.toDigits 10 m ≠ '-' :: Nat.toDigits 10 n := by
    intro m n h
    have hin : '-' ∈ Nat.toDigits 10 m := by
      rw [h]
      exact List.mem_cons_self
    exact not_mem_toDigits (by decide) m hin
  intro m n h
  match m, n with
  | .ofNat m, .ofNat n => exact congrArg Int.ofNat (toDigits_injective h)
  | .ofNat m, .negSucc n => exact absurd h (hsign m (n + 1))
  | .negSucc m, .ofNat n => exact absurd h.symm (hsign n (m + 1))
  | .negSucc m, .negSucc n =>
    exact congrArg Int.negSucc (Nat.succ.inj (toDigits_injective (List.cons.inj h).2))

theorem lineBreak_not_mem_jsonNumber (n : ℤ) : lineBreak ∉ jsonNumber n := by
  cases n with
  | ofNat n => exact not_mem_toDigits (by decide) n
  | negSucc n =>
    intro hin
    rcases List.mem_cons.mp hin with hsign | hdigits
    · exact absurd hsign (by decide)
    · exact not_mem_toDigits (by decide) (n + 1) hdigits

/-! ## The order of texts -/

/-- The UTF-16 code units of a character. -/
def unitsOf (c : Char) : List ℕ :=
  if c.toNat < 0x10000 then [c.toNat]
  else [0xD800 + (c.toNat - 0x10000) / 0x400, 0xDC00 + (c.toNat - 0x10000) % 0x400]

/-- A character is no surrogate and lies below `0x110000`. -/
theorem toNat_range (c : Char) : c.toNat < 0xD800 ∨ 0xDFFF < c.toNat ∧ c.toNat < 0x110000 :=
  c.valid

theorem unitsOf_prefixFree : PrefixFree unitsOf := by
  intro c d hprefix
  have hc := toNat_range c
  have hd := toNat_range d
  unfold unitsOf at hprefix
  refine Char.toNat_inj.mp ?_
  split_ifs at hprefix with hlow hlow' hlow'
  · exact (List.cons_prefix_cons.mp hprefix).1
  · have hunit := (List.cons_prefix_cons.mp hprefix).1
    omega
  · have hunit := (List.cons_prefix_cons.mp hprefix).1
    omega
  · obtain ⟨hhigh, hrest⟩ := List.cons_prefix_cons.mp hprefix
    have hsecond := (List.cons_prefix_cons.mp hrest).1
    omega

/-- The code units of a text determine it. -/
theorem units_injective : Function.Injective fun text : List Char => text.flatMap unitsOf := by
  intro text other h
  have hmark : ∀ c, ∃ first rest, unitsOf c = first :: rest ∧ first ≠ 0x110000 := by
    intro c
    have hc := toNat_range c
    unfold unitsOf
    split_ifs
    · exact ⟨_, _, rfl, by omega⟩
    · exact ⟨_, _, rfl, by omega⟩
  exact (unitsOf_prefixFree.ended_inj hmark (congrArg (· ++ [0x110000]) h)).1

/-- Texts are compared by their code units. -/
def notAfter (text other : List Char) : Bool :=
  decide (text.flatMap unitsOf ≤ other.flatMap unitsOf)

/-- `texts.sort()`. -/
def sortTexts (texts : List (List Char)) : List (List Char) := texts.mergeSort notAfter

/-- Two texts neither of which comes after the other are the same. -/
theorem notAfter_antisymm {text other : List Char} (h : notAfter text other = true)
    (h' : notAfter other text = true) : text = other := by
  unfold notAfter at h h'
  exact units_injective (le_antisymm (of_decide_eq_true h) (of_decide_eq_true h'))

/-- The comparison of texts is transitive. -/
theorem notAfter_trans {text other last : List Char} (h : notAfter text other = true)
    (h' : notAfter other last = true) : notAfter text last = true := by
  unfold notAfter at h h' ⊢
  exact decide_eq_true ((of_decide_eq_true h).trans (of_decide_eq_true h'))

/-- Any two texts can be compared. -/
theorem notAfter_total (text other : List Char) :
    (notAfter text other || notAfter other text) = true := by
  rw [Bool.or_eq_true]
  exact (le_total _ _).imp decide_eq_true decide_eq_true

/-- Sorted texts stand in order. -/
theorem sortTexts_pairwise (texts : List (List Char)) :
    (sortTexts texts).Pairwise fun a b => notAfter a b = true := by
  rw [sortTexts]
  refine List.pairwise_mergeSort ?_ notAfter_total texts
  intro a b c hab hbc
  exact notAfter_trans hab hbc

/-- The sorted texts do not depend on the order in which they were given. -/
theorem sortTexts_perm {texts others : List (List Char)} (h : texts.Perm others) :
    sortTexts texts = sortTexts others := by
  refine List.Perm.eq_of_pairwise ?_ (sortTexts_pairwise texts) (sortTexts_pairwise others) ?_
  · intro a b _ _ hab hba
    exact notAfter_antisymm hab hba
  · exact (List.mergeSort_perm texts _).trans (h.trans (List.mergeSort_perm others _).symm)

/-- `texts.join('\n')`. -/
def joinLines (texts : List (List Char)) : List Char := [lineBreak].intercalate texts

/-- Lines can be taken apart. -/
theorem joinLines_inj {texts others : List (List Char)}
    (htexts : ∀ text ∈ texts, text ≠ [] ∧ lineBreak ∉ text)
    (hothers : ∀ text ∈ others, text ≠ [] ∧ lineBreak ∉ text)
    (heq : joinLines texts = joinLines others) : texts = others := by
  have hsplit : ∀ lines : List (List Char), (∀ text ∈ lines, text ≠ [] ∧ lineBreak ∉ text) →
      lines ≠ [] → (joinLines lines).splitOn lineBreak = lines := fun lines h hne =>
    List.splitOn_intercalate lineBreak (fun text hin => (h text hin).2) hne
  have hempty : ∀ lines : List (List Char), (∀ text ∈ lines, text ≠ [] ∧ lineBreak ∉ text) →
      joinLines lines = [] → lines = [] := by
    intro lines h hnil
    by_contra hne
    have hread := hsplit lines h hne
    rw [hnil, List.splitOn_nil] at hread
    exact (h [] (hread ▸ List.mem_singleton_self _)).1 rfl
  by_cases hnil : texts = []
  · subst hnil
    exact (hempty others hothers heq.symm).symm
  · have hne : others ≠ [] := by
      rintro rfl
      exact hnil (hempty texts htexts heq)
    rw [← hsplit texts htexts hnil, heq, hsplit others hothers hne]

end FactoryServer.TextCodes
