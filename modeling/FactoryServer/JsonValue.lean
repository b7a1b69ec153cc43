import Mathlib.Data.List.Basic

/-!
# JSON values as the request handlers read them

A request body is an untyped JSON value. The handlers decide with the
operators of JavaScript: optional chaining, nullish coalescing, truthiness
and the iteration protocol. A missing property is `none`, so that `null`
and `undefined` stay distinct. Numbers are integers, since no handler
modelled here computes with a fraction.
-/

namespace FactoryServer.JsonValue

/-- A parsed JSON value. An object keeps its properties in enumeration order. -/
inductive Json where
  | null
  | bool (b : Bool)
  | num (n : Int)
  | str (s : String)
  | arr (items : List Json)
  | obj (fields : List (String × Json))
  deriving Repr

/-- Property read `value.key` on a value that is not `undefined`. -/
def Json.field? (key : String) : Json → Option Json
  | .obj fields => (fields.find? fun f => f.1 == key).map Prod.snd
  | _ => none

/-- Optional chaining `value?.key`; `null?.key` is `undefined` as well. -/
def chain (value : Option Json) (key : String) : Option Json :=
  value.bind (Json.field? key)

/-- JavaScript truthiness of a value that may be `undefined`. -/
def truthy : Option Json → Bool
  | none => false
  | some .null => false
  | some (.bool b) => b
  | some (.num n) => n != 0
  | some (.str s) => s != ""
  | some (.arr _) => true
  | some (.obj _) => true

/-- `null` and `undefined` are the two nullish values. -/
def nullish : Option Json → Bool
  | none => true
  | some .null => true
  | some _ => false

/-- Nullish coalescing `value ?? fallback`. -/
def coalesce (value fallback : Option Json) : Option Json :=
  if nullish value then fallback else value

/-- Logical or `value || fallback`. -/
def orElse (value fallback : Option Json) : Option Json :=
  if truthy value then value else fallback

/-- The `length` property: arrays and strings have their own, and an object
has whatever the client put under that name. -/
def Json.length? : Json → Option Json
  | .arr items => some (.num items.length)
  | .str s => some (.num s.length)
  | value => value.field? "length"

/-- The values of `for (const x of value)`; `none` is the `TypeError` of a
value that is not iterable. A string iterates its characters. -/
def Json.iterate? : Json → Option (List Json)
  | .arr items => some items
  | .str s => some (s.toList.map fun c => .str (String.singleton c))
  | _ => none

/-- `Object.entries(value)`: the keys are strings whatever the value is. -/
def Json.entries : Json → List (String × Json)
  | .obj fields => fields
  | .arr items => items.mapIdx fun i item => (toString i, item)
  | .str s => s.toList.mapIdx fun i c => (toString i, .str (String.singleton c))
  | _ => []

/-- Assign one property: an existing one keeps its place. -/
def setField (fields : List (String × Json)) (key : String) (value : Json) :
    List (String × Json) :=
  if fields.any (fun f => f.1 == key) then
    fields.map fun f => if f.1 == key then (key, value) else f
  else fields ++ [(key, value)]

/-- `{ ...value, key1: value1, ... }`; spreading `null` or `undefined` adds nothing. -/
def spread (value : Option Json) (extra : List (String × Json)) : Json :=
  .obj (extra.foldl (fun fields f => setField fields f.1 f.2) ((value.map Json.entries).getD []))

mutual

/-- `String(value)`, the property key a value denotes. -/
def Json.propertyKey : Json → String
  | .null => "null"
  | .bool b => toString b
  | .num n => toString n
  | .str s => s
  | .arr items => joinItems items
  | .obj _ => "[object Object]"

/-- `items.join(",")`, where `null` is left empty. -/
def joinItems : List Json → String
  | [] => ""
  | [.null] => ""
  | [item] => item.propertyKey
  | .null :: rest => "," ++ joinItems rest
  | item :: rest => item.propertyKey ++ "," ++ joinItems rest

end

/-- The value as a string, when it is one. -/
def Json.str? : Json → Option String
  | .str s => some s
  | _ => none

/-- An array of strings, the shape the DTOs name. -/
def strings (ids : List String) : Json := .arr (ids.map .str)

/-- `value.startsWith(front)`. -/
def startsWith (value front : String) : Bool := front.toList.isPrefixOf value.toList

/-- Case-insensitive comparison of two role names. -/
def sameLowerCase (a b : String) : Bool :=
  a.toList.map Char.toLower == b.toList.map Char.toLower

@[simp] theorem truthy_none : truthy none = false := rfl

@[simp] theorem truthy_arr (items : List Json) : truthy (some (.arr items)) = true := rfl

@[simp] theorem iterate_strings (ids : List String) :
    (strings ids).iterate? = some (ids.map .str) := rfl

/-- A truthy value is never nullish, so `??` and `||` agree on it. -/
theorem nullish_false_of_truthy {value : Option Json} (h : truthy value = true) :
    nullish value = false := by
  cases value with
  | none => exact Bool.noConfusion h
  | some v => cases v <;> simp_all [truthy, nullish]

/-- The two fallback operators pick the same value when the first is truthy. -/
theorem coalesce_eq_orElse_of_truthy {value : Option Json} (h : truthy value = true)
    (a b : Option Json) : coalesce value a = orElse value b := by
  simp [coalesce, orElse, h, nullish_false_of_truthy h]

/-- They also agree on the nullish values, up to their own fallbacks. -/
theorem orElse_of_nullish {value : Option Json} (h : nullish value = true)
    (b : Option Json) : orElse value b = b := by
  have hv : truthy value = false := by
    cases ht : truthy value with
    | false => rfl
    | true => rw [nullish_false_of_truthy ht] at h; exact Bool.noConfusion h
  simp [orElse, hv]

/-- Assigning one property leaves the others as they were. -/
theorem find_setField_of_ne {key other : String} (h : other ≠ key) (value : Json)
    (fields : List (String × Json)) :
    (setField fields key value).find? (fun f => f.1 == other) =
      fields.find? fun f => f.1 == other := by
  have hk : (key == other) = false := beq_false_of_ne (Ne.symm h)
  unfold setField
  split_ifs
  · induction fields with
    | nil => rfl
    | cons f rest ih =>
      rw [List.map_cons, List.find?_cons, List.find?_cons]
      by_cases hf : (f.1 == key) = true
      · have hf' : (f.1 == other) = false := by
          rw [beq_iff_eq.mp hf]
          exact hk
        rw [if_pos hf, hf']
        simp only [hk]
        by_cases hr : rest.any (fun f => f.1 == key) = true
        · exact ih hr
        · have hmap :
              (rest.map fun f => if (f.1 == key) = true then (key, value) else f) = rest := by
            refine (List.map_congr_left fun g hg => ?_).trans (List.map_id rest)
            rw [if_neg fun hc => hr (List.any_eq_true.mpr ⟨g, hg, hc⟩)]
            rfl
          rw [hmap]
      · rw [if_neg hf]
        cases (f.1 == other) with
        | true => rfl
        | false =>
          refine ih ?_
          rename_i hany
          simpa [hf] using hany
  · rw [List.find?_append]
    simp [hk]

/-- A spread keeps the properties it does not assign. -/
theorem field_spread_of_ne {key : String} {extra : List (String × Json)} (value : Option Json)
    (h : ∀ f ∈ extra, key ≠ f.1) :
    (spread value extra).field? key =
      (Json.obj ((value.map Json.entries).getD [])).field? key := by
  simp only [spread, Json.field?]
  generalize (value.map Json.entries).getD [] = fields
  congr 1
  induction extra generalizing fields with
  | nil => rfl
  | cons f rest ih =>
    rw [List.foldl_cons, ih (fun g hg => h g (List.mem_cons_of_mem f hg)) _]
    exact find_setField_of_ne (h f List.mem_cons_self) f.2 fields

/-- So does a spread of an object. -/
theorem field_spread_obj {key : String} {extra : List (String × Json)}
    (fields : List (String × Json)) (h : ∀ f ∈ extra, key ≠ f.1) :
    (spread (some (.obj fields)) extra).field? key = (Json.obj fields).field? key :=
  field_spread_of_ne _ h

/-- An assigned property reads back. -/
theorem find_setField_self (fields : List (String × Json)) (key : String) (value : Json) :
    (setField fields key value).find? (fun f => f.1 == key) = some (key, value) := by
  unfold setField
  split_ifs with hany
  · induction fields with
    | nil => cases hany
    | cons f rest ih =>
      rw [List.map_cons, List.find?_cons]
      by_cases hf : (f.1 == key) = true
      · rw [if_pos hf]
        simp
      · rw [if_neg hf]
        simp only [hf]
        exact ih (by simpa [hf] using hany)
  · rw [List.find?_append, List.find?_eq_none.mpr fun f hf hkey => hany
      (List.any_eq_true.mpr ⟨f, hf, hkey⟩)]
    simp

/-- A spread has what it assigns last to a property. -/
theorem field_spread_assigned {key : String} {extra : List (String × Json)} (value : Option Json)
    (front : List (String × Json)) (assigned : Json) (h : ∀ f ∈ extra, key ≠ f.1) :
    (spread value (front ++ (key, assigned) :: extra)).field? key = some assigned := by
  have hsplit : spread value (front ++ (key, assigned) :: extra) =
      spread (some (spread value (front ++ [(key, assigned)]))) extra := by
    simp [spread, Json.entries, List.foldl_append]
  rw [hsplit, spread.eq_def value, field_spread_obj _ h]
  simp only [List.foldl_append, List.foldl_cons, List.foldl_nil, Json.field?, find_setField_self,
    Option.map_some]

/-- Only an object has properties of its own. -/
theorem Json.obj_of_field {value found : Json} {key : String}
    (h : value.field? key = some found) : ∃ fields, value = .obj fields := by
  cases value with
  | obj fields => exact ⟨fields, rfl⟩
  | _ => cases h

/-- Only an object has truthy properties. -/
theorem Json.obj_of_truthy_field {value : Json} {key : String}
    (h : truthy (value.field? key) = true) : ∃ fields, value = .obj fields := by
  cases hfield : value.field? key with
  | none =>
    rw [hfield] at h
    cases h
  | some found => exact Json.obj_of_field hfield

end FactoryServer.JsonValue
