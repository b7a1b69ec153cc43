import Mathlib.Data.List.Basic
import Mathlib.Data.List.Induction
import Mathlib.Data.String.Basic

/-!
# The values of a jsonb column

PostgreSQL keeps a JSON value as a tree in which every object has its keys once and
in order, shorter keys first. Here are the operators on such values: field access,
`jsonb_set`, `||`, and the steps of a lax path, which looks into arrays on its way.
-/

namespace FactoryServer.JsonbValues

/-- A value. An object keeps its fields in the order of their keys. -/
inductive Jsonb where
  | null
  | bool (b : Bool)
  | num (q : Rat)
  | str (s : String)
  | arr (items : List Jsonb)
  | obj (fields : List (String × Jsonb))
  deriving Repr

/-! ## Equality -/

mutual

/-- Equality of two values. -/
def Jsonb.beq : Jsonb → Jsonb → Bool
  | .null, .null => true
  | .bool a, .bool b => a == b
  | .num a, .num b => a == b
  | .str a, .str b => a == b
  | .arr a, .arr b => itemsBeq a b
  | .obj a, .obj b => fieldsBeq a b
  | _, _ => false

/-- Equality of two arrays. -/
def itemsBeq : List Jsonb → List Jsonb → Bool
  | [], [] => true
  | a :: as, b :: bs => a.beq b && itemsBeq as bs
  | _, _ => false

/-- Equality of two objects. -/
def fieldsBeq : List (String × Jsonb) → List (String × Jsonb) → Bool
  | [], [] => true
  | a :: as, b :: bs => a.1 == b.1 && a.2.beq b.2 && fieldsBeq as bs
  | _, _ => false

end

mutual

theorem beq_iff : ∀ a b : Jsonb, a.beq b = true ↔ a = b
  | .arr as, b => by cases b <;> simp [Jsonb.beq, itemsBeq_iff as]
  | .obj as, b => by cases b <;> simp [Jsonb.beq, fieldsBeq_iff as]
  | .null, b => by cases b <;> simp [Jsonb.beq]
  | .bool a, b => by cases b <;> simp [Jsonb.beq]
  | .num a, b => by cases b <;> simp [Jsonb.beq]
  | .str a, b => by cases b <;> simp [Jsonb.beq]

theorem itemsBeq_iff : ∀ as bs : List Jsonb, itemsBeq as bs = true ↔ as = bs
  | [], bs => by cases bs <;> simp [itemsBeq]
  | a :: as, bs => by cases bs <;> simp [itemsBeq, beq_iff a, itemsBeq_iff as]

theorem fieldsBeq_iff : ∀ as bs : List (String × Jsonb), fieldsBeq as bs = true ↔ as = bs
  | [], bs => by cases bs <;> simp [fieldsBeq]
  | (k, a) :: as, bs => by
    cases bs <;> simp [fieldsBeq, beq_iff a, fieldsBeq_iff as, Prod.ext_iff, and_assoc]

end

instance : DecidableEq Jsonb := fun a b => decidable_of_iff _ (beq_iff a b)

/-! ## Keys -/

/-- The order of the keys of an object: by length, then by bytes. -/
def keyLt (a b : String) : Prop :=
  a.utf8ByteSize < b.utf8ByteSize ∨ a.utf8ByteSize = b.utf8ByteSize ∧ a < b

instance (a b : String) : Decidable (keyLt a b) := inferInstanceAs (Decidable (_ ∨ _))

theorem keyLt_irrefl (a : String) : ¬ keyLt a a := by
  rintro (h | ⟨-, h⟩)
  · exact Nat.lt_irrefl _ h
  · exact String.lt_irrefl a h

theorem keyLt_trans {a b c : String} (hab : keyLt a b) (hbc : keyLt b c) : keyLt a c := by
  rcases hab with hab | ⟨hab, hab'⟩ <;> rcases hbc with hbc | ⟨hbc, hbc'⟩
  · exact Or.inl (Nat.lt_trans hab hbc)
  · exact Or.inl (hbc ▸ hab)
  · exact Or.inl (hab ▸ hbc)
  · exact Or.inr ⟨hab.trans hbc, String.lt_trans hab' hbc'⟩

theorem keyLt_of_ne {a b : String} (hne : a ≠ b) (hlt : ¬ keyLt a b) : keyLt b a := by
  by_cases hsize : a.utf8ByteSize = b.utf8ByteSize
  · refine Or.inr ⟨hsize.symm, ?_⟩
    have hle : ¬ a < b := fun h => hlt (Or.inr ⟨hsize, h⟩)
    rcases lt_or_gt_of_ne hne with h | h
    · exact absurd h hle
    · exact h
  · have hge : ¬ a.utf8ByteSize < b.utf8ByteSize := fun h => hlt (Or.inl h)
    exact Or.inl (by omega)

/-- The keys are in order, each of them once. -/
def Ordered (fields : List (String × Jsonb)) : Prop :=
  (fields.map Prod.fst).Pairwise keyLt

mutual

/-- Every object of the value has its keys in order. -/
def Jsonb.Canonical : Jsonb → Prop
  | .arr items => CanonicalItems items
  | .obj fields => Ordered fields ∧ CanonicalFields fields
  | _ => True

/-- Every element is canonical. -/
def CanonicalItems : List Jsonb → Prop
  | [] => True
  | item :: rest => item.Canonical ∧ CanonicalItems rest

/-- Every field is canonical. -/
def CanonicalFields : List (String × Jsonb) → Prop
  | [] => True
  | field :: rest => field.2.Canonical ∧ CanonicalFields rest

end

theorem canonicalItems_iff (items : List Jsonb) :
    CanonicalItems items ↔ ∀ item ∈ items, item.Canonical := by
  induction items with
  | nil => simp [CanonicalItems]
  | cons item rest ih => simp [CanonicalItems, ih]

theorem canonicalFields_iff (fields : List (String × Jsonb)) :
    CanonicalFields fields ↔ ∀ field ∈ fields, field.2.Canonical := by
  induction fields with
  | nil => simp [CanonicalFields]
  | cons field rest ih => simp [CanonicalFields, ih]

/-! ## Fields -/

/-- Put a field in its place. -/
def putField (key : String) (value : Jsonb) : List (String × Jsonb) → List (String × Jsonb)
  | [] => [(key, value)]
  | field :: rest =>
    if field.1 = key then (key, value) :: rest
    else if keyLt key field.1 then (key, value) :: field :: rest
    else field :: putField key value rest

/-- The key that was put reads back, and the others are as they were. -/
theorem lookup_putField {key : String} {value : Jsonb} {fields : List (String × Jsonb)}
    (other : String) :
    (putField key value fields).lookup other =
      if other = key then some value else fields.lookup other := by
  induction fields with
  | nil => by_cases h : other = key <;> simp [putField, List.lookup_cons, List.lookup_nil, h, beq_false_of_ne]
  | cons field rest ih =>
    by_cases hother : other = key
    · subst hother
      rw [if_pos rfl]
      unfold putField
      split_ifs with hfield hbefore
      · simp
      · simp
      · have hne : (other == field.1) = false := beq_false_of_ne (Ne.symm hfield)
        rw [List.lookup_cons, hne, ih, if_pos rfl]
    · rw [if_neg hother]
      have hne : (other == key) = false := beq_false_of_ne hother
      unfold putField
      split_ifs with hfield hbefore
      · rw [List.lookup_cons, List.lookup_cons, hfield, hne]
      · rw [List.lookup_cons, hne]
      · rw [List.lookup_cons, List.lookup_cons, ih, if_neg hother]

/-- The keys stay in order. -/
theorem mem_putField {key : String} {value : Jsonb} {fields : List (String × Jsonb)} {k : String}
    (hk : k ∈ (putField key value fields).map Prod.fst) :
    k = key ∨ k ∈ fields.map Prod.fst := by
  induction fields with
  | nil => exact Or.inl (by simpa [putField] using hk)
  | cons field rest ih =>
    unfold putField at hk
    split_ifs at hk with hfield hbefore
    · rcases List.mem_cons.mp hk with h | h
      · exact Or.inl h
      · exact Or.inr (List.mem_cons_of_mem _ h)
    · rcases List.mem_cons.mp hk with h | h
      · exact Or.inl h
      · exact Or.inr h
    · rcases List.mem_cons.mp hk with h | h
      · exact Or.inr (h ▸ List.mem_cons_self)
      · exact (ih h).imp id (List.mem_cons_of_mem _)

theorem Ordered.putField {key : String} {value : Jsonb} {fields : List (String × Jsonb)}
    (ho : Ordered fields) : Ordered (putField key value fields) := by
  induction fields with
  | nil => exact List.pairwise_singleton _ _
  | cons field rest ih =>
    obtain ⟨hfirst, hrest⟩ := List.pairwise_cons.mp ho
    unfold JsonbValues.putField
    split_ifs with hfield hbefore
    · exact List.pairwise_cons.mpr ⟨hfield ▸ hfirst, hrest⟩
    · refine List.pairwise_cons.mpr ⟨fun k hk => ?_, ho⟩
      rcases List.mem_cons.mp hk with rfl | hlater
      · exact hbefore
      · exact keyLt_trans hbefore (hfirst k hlater)
    · refine List.pairwise_cons.mpr ⟨fun k hk => ?_, ih hrest⟩
      rcases mem_putField hk with rfl | hlater
      · exact keyLt_of_ne (Ne.symm hfield) hbefore
      · exact hfirst k hlater

/-- An absent key reads nothing. -/
theorem lookup_of_not_mem {fields : List (String × Jsonb)} {key : String}
    (hkey : key ∉ fields.map Prod.fst) : fields.lookup key = none := by
  refine List.lookup_eq_none_iff.mpr fun field hfield => ?_
  have hne : key ≠ field.1 := fun heq => hkey (heq ▸ List.mem_map_of_mem hfield)
  simp [hne]

/-- A field reads as its value where no other has its key. -/
theorem lookup_of_mem {fields : List (String × Jsonb)} (hkeys : (fields.map Prod.fst).Nodup)
    {field : String × Jsonb} (hin : field ∈ fields) : fields.lookup field.1 = some field.2 := by
  induction fields with
  | nil => cases hin
  | cons first rest ih =>
    obtain ⟨hfresh, hrest⟩ := List.nodup_cons.mp hkeys
    obtain rfl | hin := List.mem_cons.mp hin
    · rw [List.lookup_cons, beq_self_eq_true]
    · have hne : field.1 ≠ first.1 := fun heq => hfresh (heq ▸ List.mem_map_of_mem hin)
      rw [List.lookup_cons, beq_false_of_ne hne]
      exact ih hrest hin

/-- Objects with the same fields are the same. -/
theorem Ordered.ext {fields fields' : List (String × Jsonb)} (ho : Ordered fields)
    (ho' : Ordered fields') (heq : ∀ key, fields.lookup key = fields'.lookup key) :
    fields = fields' := by
  induction fields generalizing fields' with
  | nil =>
    cases fields' with
    | nil => rfl
    | cons field rest =>
      have hread := heq field.1
      rw [List.lookup_cons, beq_self_eq_true] at hread
      cases hread
  | cons field rest ih =>
    obtain ⟨hfirst, hrest⟩ := List.pairwise_cons.mp ho
    cases fields' with
    | nil =>
      have hread := heq field.1
      rw [List.lookup_cons, beq_self_eq_true] at hread
      cases hread
    | cons field' rest' =>
      obtain ⟨hfirst', hrest'⟩ := List.pairwise_cons.mp ho'
      have hfresh : field.1 ∉ rest.map Prod.fst := fun hin => keyLt_irrefl _ (hfirst _ hin)
      have hfresh' : field'.1 ∉ rest'.map Prod.fst := fun hin => keyLt_irrefl _ (hfirst' _ hin)
      have hkey : field.1 = field'.1 := by
        by_contra hne
        have hread := heq field.1
        rw [List.lookup_cons, beq_self_eq_true, List.lookup_cons, beq_false_of_ne hne] at hread
        have hin : field.1 ∈ rest'.map Prod.fst := by
          by_contra hout
          rw [lookup_of_not_mem hout] at hread
          cases hread
        have hread' := heq field'.1
        rw [List.lookup_cons, beq_false_of_ne (Ne.symm hne), List.lookup_cons,
          beq_self_eq_true] at hread'
        have hin' : field'.1 ∈ rest.map Prod.fst := by
          by_contra hout
          rw [lookup_of_not_mem hout] at hread'
          cases hread'
        exact keyLt_irrefl _ (keyLt_trans (hfirst _ hin') (hfirst' _ hin))
      have hvalue : field.2 = field'.2 := by
        have hread := heq field.1
        rw [List.lookup_cons, beq_self_eq_true, List.lookup_cons, hkey, beq_self_eq_true] at hread
        exact Option.some.inj hread
      rw [Prod.ext hkey hvalue]
      congr 1
      refine ih hrest hrest' fun key => ?_
      by_cases hsame : key = field'.1
      · rw [hsame, lookup_of_not_mem hfresh', ← hkey, lookup_of_not_mem hfresh]
      · have hread := heq key
        rwa [List.lookup_cons, List.lookup_cons, hkey, beq_false_of_ne hsame] at hread

/-! ## Operators -/

/-- `value -> 'key'`. -/
def Jsonb.get (value : Jsonb) (key : String) : Option Jsonb :=
  match value with
  | .obj fields => fields.lookup key
  | _ => none

/-- `value ->> 'key'`; `render` writes a value that is no string. -/
def Jsonb.getText (render : Jsonb → String) (value : Jsonb) (key : String) : Option String :=
  match value.get key with
  | none => none
  | some .null => none
  | some (.str s) => some s
  | some other => some (render other)

/-- `jsonb_set(value, '{key}', new)` of an object. -/
def Jsonb.set (value : Jsonb) (key : String) (new : Jsonb) : Jsonb :=
  match value with
  | .obj fields => .obj (putField key new fields)
  | other => other

/-- `value || other` of two objects. -/
def Jsonb.concat (value other : Jsonb) : Jsonb :=
  match other with
  | .obj fields => fields.foldl (fun value field => value.set field.1 field.2) value
  | _ => value

/-- `jsonb_array_elements` of an array, else of `'[]'`. -/
def elements : Option Jsonb → List Jsonb
  | some (.arr items) => items
  | _ => []

/-- `jsonb_typeof(value) = 'array'`. -/
def isArray : Option Jsonb → Bool
  | some (.arr _) => true
  | _ => false

@[simp] theorem elements_arr (items : List Jsonb) : elements (some (.arr items)) = items := rfl

@[simp] theorem isArray_arr (items : List Jsonb) : isArray (some (.arr items)) = true := rfl

/-- `.key[*]` of a lax path: an array is looked into, once, on both occasions. -/
def Jsonb.step (key : String) (value : Jsonb) : List Jsonb :=
  let values := match value with
    | .arr items => items.filterMap (Jsonb.get · key)
    | other => (other.get key).toList
  values.flatMap fun found =>
    match found with
    | .arr items => items
    | other => [other]

/-- `jsonb_path_query(value, 'lax $.k1[*].k2[*]')`. -/
def Jsonb.path (value : Jsonb) (keys : List String) : List Jsonb :=
  keys.foldl (fun values key => values.flatMap (Jsonb.step key)) [value]

/-! ## What the operators read -/

/-- The value is an object with its keys in order. -/
def Jsonb.IsObject (value : Jsonb) : Prop := ∃ fields, value = .obj fields ∧ Ordered fields

theorem Jsonb.IsObject.set {value : Jsonb} (ho : value.IsObject) (key : String) (new : Jsonb) :
    (value.set key new).IsObject := by
  obtain ⟨fields, rfl, hfields⟩ := ho
  exact ⟨_, rfl, hfields.putField⟩

theorem Jsonb.IsObject.get_set {value : Jsonb} (ho : value.IsObject) (key : String) (new : Jsonb)
    (other : String) :
    (value.set key new).get other = if other = key then some new else value.get other := by
  obtain ⟨fields, rfl, -⟩ := ho
  exact lookup_putField other

/-- A field that is set under a condition. -/
theorem Jsonb.IsObject.setIf {value : Jsonb} (ho : value.IsObject) (b : Bool) (key : String)
    (new : Jsonb) : (if b then value.set key new else value).IsObject := by
  cases b
  · exact ho
  · exact ho.set key new

theorem Jsonb.IsObject.get_setIf {value : Jsonb} (ho : value.IsObject) (b : Bool) (key : String)
    (new : Jsonb) (other : String) :
    (if b then value.set key new else value).get other =
      if other = key ∧ b = true then some new else value.get other := by
  cases b
  · simp
  · simpa using ho.get_set key new other

/-- Objects that read the same are the same. -/
theorem Jsonb.IsObject.ext {value value' : Jsonb} (ho : value.IsObject) (ho' : value'.IsObject)
    (heq : ∀ key, value.get key = value'.get key) : value = value' := by
  obtain ⟨fields, rfl, hfields⟩ := ho
  obtain ⟨fields', rfl, hfields'⟩ := ho'
  exact congrArg Jsonb.obj (hfields.ext hfields' heq)

/-- Only an object has fields. -/
theorem Jsonb.Canonical.isObject {value found : Jsonb} {key : String} (hc : value.Canonical)
    (hget : value.get key = some found) : value.IsObject := by
  cases value with
  | obj fields => exact ⟨fields, rfl, hc.1⟩
  | _ => cases hget

/-- A field of a canonical value is canonical. -/
theorem Jsonb.Canonical.get {value found : Jsonb} {key : String} (hc : value.Canonical)
    (hget : value.get key = some found) : found.Canonical := by
  cases value with
  | obj fields =>
    obtain ⟨before, after, hsplit, -⟩ := List.lookup_eq_some_iff.mp hget
    refine (canonicalFields_iff fields).mp hc.2 (key, found) ?_
    rw [hsplit]
    exact List.mem_append_right _ List.mem_cons_self
  | _ => cases hget

/-- So are the elements of an array. -/
theorem canonical_of_elements {value : Option Jsonb} (hc : ∀ v, value = some v → v.Canonical) :
    ∀ item ∈ elements value, item.Canonical := by
  intro item hitem
  cases value with
  | none => cases hitem
  | some v =>
    cases v with
    | arr items => exact (canonicalItems_iff items).mp (hc _ rfl) item hitem
    | _ => cases hitem

/-- A field that is added under a condition. -/
theorem Jsonb.concat_ite (value : Jsonb) (b : Bool) (key : String) (new : Jsonb) :
    value.concat (if b then .obj [(key, new)] else .obj []) =
      if b then value.set key new else value := by
  cases b <;> rfl

/-- An array is its elements. -/
theorem eq_of_isArray {value : Option Jsonb} (ha : isArray value = true) :
    value = some (.arr (elements value)) := by
  cases value with
  | none => cases ha
  | some v =>
    cases v with
    | arr items => rfl
    | _ => cases ha

/-- Anything else has none. -/
theorem elements_of_not_isArray {value : Option Jsonb} (ha : isArray value = false) :
    elements value = [] := by
  cases value with
  | none => rfl
  | some v =>
    cases v with
    | arr items => cases ha
    | _ => rfl

/-! ## Objects in a program -/

/-- An object that a program holds: what `JSON.stringify` of it stores. -/
structure JsObject where
  /-- The properties. -/
  fields : List (String × Jsonb)
  /-- Each key once. -/
  ordered : Ordered fields

/-- `object.key`; a missing property is `none`. -/
def JsObject.get (object : JsObject) (key : String) : Option Jsonb := object.fields.lookup key

/-- The object as a value. -/
def JsObject.value (object : JsObject) : Jsonb := .obj object.fields

/-- `{}`. -/
def JsObject.empty : JsObject := ⟨[], List.Pairwise.nil⟩

/-- `{ ...object, key: value }`. -/
def JsObject.put (object : JsObject) (key : String) (value : Jsonb) : JsObject :=
  ⟨putField key value object.fields, object.ordered.putField⟩

/-- The object without some of its keys. -/
def JsObject.drop (object : JsObject) (keys : List String) : JsObject :=
  ⟨object.fields.filter fun field => field.1 ∉ keys,
    object.ordered.sublist (List.filter_sublist.map Prod.fst)⟩

/-- `{ ...object, ...fields }`. -/
def JsObject.assign (object : JsObject) (fields : List (String × Jsonb)) : JsObject :=
  fields.foldl (fun object field => object.put field.1 field.2) object

/-- What `...value` copies: the properties of an object, the elements of an array and the
characters of a string under their positions. -/
def spread : Option Jsonb → List (String × Jsonb)
  | some (.obj fields) => fields
  | some (.arr items) => items.zipIdx.map fun item => (toString item.2, item.1)
  | some (.str s) => s.toList.zipIdx.map fun c => (toString c.2, .str (String.singleton c.1))
  | _ => []

theorem JsObject.get_put (object : JsObject) (key : String) (value : Jsonb) (other : String) :
    (object.put key value).get other = if other = key then some value else object.get other :=
  lookup_putField other

theorem JsObject.get_drop (object : JsObject) (keys : List String) (key : String) :
    (object.drop keys).get key = if key ∈ keys then none else object.get key := by
  have hlookup : ∀ fields : List (String × Jsonb),
      (fields.filter fun field => field.1 ∉ keys).lookup key =
        if key ∈ keys then none else fields.lookup key := by
    intro fields
    induction fields with
    | nil => simp
    | cons field rest ih =>
      by_cases hfield : field.1 ∈ keys
      · rw [List.filter_cons_of_neg (by simpa using hfield), ih]
        split_ifs with hkey
        · rfl
        · have hne : key ≠ field.1 := fun heq => hkey (heq ▸ hfield)
          rw [List.lookup_cons, beq_false_of_ne hne]
      · rw [List.filter_cons_of_pos (by simpa using hfield), List.lookup_cons, ih,
          List.lookup_cons]
        by_cases hkey : key = field.1
        · rw [hkey, beq_self_eq_true]
          exact (if_neg hfield).symm
        · rw [beq_false_of_ne hkey]
  exact hlookup object.fields

theorem JsObject.assign_concat (object : JsObject) (fields : List (String × Jsonb))
    (field : String × Jsonb) :
    object.assign (fields ++ [field]) = (object.assign fields).put field.1 field.2 := by
  simp [JsObject.assign, List.foldl_append]

/-- A spread over an object reads first what it copies. -/
theorem JsObject.get_assign (object : JsObject) (fields : List (String × Jsonb)) (key : String) :
    (object.assign fields).get key = ((empty.assign fields).get key).or (object.get key) := by
  induction fields using List.reverseRecOn with
  | nil => rfl
  | append_singleton rest field ih =>
    rw [assign_concat, assign_concat, get_put, get_put, ih]
    split_ifs <;> rfl

/-- A spread of fields with distinct keys into the empty object reads these fields. -/
theorem JsObject.get_assign_empty {fields : List (String × Jsonb)}
    (hkeys : (fields.map Prod.fst).Nodup) (key : String) :
    (empty.assign fields).get key = fields.lookup key := by
  induction fields with
  | nil => rfl
  | cons field rest ih =>
    obtain ⟨hfresh, hrest⟩ := List.nodup_cons.mp hkeys
    have hfirst : (empty.assign (field :: rest)).get key =
        ((empty.assign rest).get key).or ((empty.put field.1 field.2).get key) :=
      (empty.put field.1 field.2).get_assign rest key
    rw [hfirst, ih hrest, get_put, List.lookup_cons]
    by_cases hkey : key = field.1
    · rw [hkey, beq_self_eq_true, lookup_of_not_mem hfresh, if_pos rfl]
      rfl
    · rw [beq_false_of_ne hkey, if_neg hkey]
      exact Option.or_none

/-- The keys of an object are distinct. -/
theorem Ordered.nodup {fields : List (String × Jsonb)} (ho : Ordered fields) :
    (fields.map Prod.fst).Nodup := by
  refine List.Pairwise.imp (fun {a b} hlt => ?_) ho
  rintro rfl
  exact keyLt_irrefl a hlt

/-- Objects that read the same are the same. -/
theorem JsObject.ext_get {object other : JsObject} (heq : ∀ key, object.get key = other.get key) :
    object = other := by
  obtain ⟨fields, hfields⟩ := object
  obtain ⟨fields', hfields'⟩ := other
  obtain rfl := hfields.ext hfields' heq
  rfl

end FactoryServer.JsonbValues
