import Mathlib.Data.List.Infix

/-!
# Conditions with numbered parameters

A `WHERE` clause is a text with numbered parameters beside it. A comparison with a
missing column is neither true nor false, and a row is selected where the whole
condition is true. A clause is built in pieces that each append the parameters they
use, so its meaning must not depend on what is appended after it.
-/

namespace FactoryServer.SqlConditions

/-! ## Conditions -/

/-- A bound parameter. -/
inductive SqlParam where
  /-- A `text` value. -/
  | text (value : String)
  /-- A `text[]` value. -/
  | array (values : List String)
  deriving DecidableEq

/-- A condition over text columns `κ` and boolean columns `β`. Parameters count from one. -/
inductive Condition (κ β : Type) where
  /-- `FALSE`. -/
  | never
  /-- A boolean column. -/
  | flag (column : β)
  /-- `column = $n`. -/
  | eq (column : κ) (n : ℕ)
  /-- `column = ANY($n)`. -/
  | eqAny (column : κ) (n : ℕ)
  /-- `column LIKE $n`. -/
  | like (column : κ) (n : ℕ)
  /-- `a AND b`. -/
  | and (a b : Condition κ β)
  /-- `a OR b`. -/
  | or (a b : Condition κ β)
  deriving DecidableEq

/-- One row. -/
structure SqlRow (κ β : Type) where
  /-- The text columns; a missing value is `NULL`. -/
  text : κ → Option String
  /-- The boolean columns, never `NULL`. -/
  flag : β → Bool

/-- `LIKE`: `%` stands for any text, `_` for one character, and a backslash takes the next
character as it is. -/
def likeMatches : List Char → List Char → Bool
  | [], text => text.isEmpty
  | '%' :: pattern, text => text.tails.any (likeMatches pattern)
  | '_' :: pattern, text =>
    match text with
    | [] => false
    | _ :: rest => likeMatches pattern rest
  | '\\' :: c :: pattern, text =>
    match text with
    | [] => false
    | d :: rest => c == d && likeMatches pattern rest
  | c :: pattern, text =>
    match text with
    | [] => false
    | d :: rest => c == d && likeMatches pattern rest

/-- The parameter `$n`. -/
def param (params : List SqlParam) (n : ℕ) : Option SqlParam := params[n - 1]?

variable {κ β : Type}

/-- `AND` of two truth values. -/
def bothTrue : Option Bool → Option Bool → Option Bool
  | some false, _ => some false
  | _, some false => some false
  | some true, some true => some true
  | _, _ => none

/-- `OR` of two truth values. -/
def eitherTrue : Option Bool → Option Bool → Option Bool
  | some true, _ => some true
  | _, some true => some true
  | some false, some false => some false
  | _, _ => none

theorem bothTrue_iff (a b : Option Bool) :
    bothTrue a b = some true ↔ a = some true ∧ b = some true := by
  rcases a with _ | _ | _ <;> rcases b with _ | _ | _ <;> decide

theorem eitherTrue_iff (a b : Option Bool) :
    eitherTrue a b = some true ↔ a = some true ∨ b = some true := by
  rcases a with _ | _ | _ <;> rcases b with _ | _ | _ <;> decide

/-- The truth of a condition: `none` is neither true nor false. -/
def eval (row : SqlRow κ β) (params : List SqlParam) : Condition κ β → Option Bool
  | .never => some false
  | .flag column => some (row.flag column)
  | .eq column n =>
    match param params n with
    | some (.text value) => (row.text column).map (· == value)
    | _ => none
  | .eqAny column n =>
    match param params n with
    | some (.array values) => (row.text column).map values.contains
    | _ => none
  | .like column n =>
    match param params n with
    | some (.text value) => (row.text column).map fun text => likeMatches value.toList text.toList
    | _ => none
  | .and a b => bothTrue (eval row params a) (eval row params b)
  | .or a b => eitherTrue (eval row params a) (eval row params b)

/-- The condition selects the row. -/
def Satisfied (row : SqlRow κ β) (params : List SqlParam) (c : Condition κ β) : Prop :=
  eval row params c = some true

instance (row : SqlRow κ β) (params : List SqlParam) (c : Condition κ β) :
    Decidable (Satisfied row params c) :=
  inferInstanceAs (Decidable (eval row params c = some true))

/-- `conditions.join(' AND ')` of at least one condition. -/
def joinAnd (first : Condition κ β) (rest : List (Condition κ β)) : Condition κ β :=
  rest.foldl .and first

/-- `conditions.join(' OR ')`, or `FALSE` where there is no condition. -/
def joinOr : List (Condition κ β) → Condition κ β
  | [] => .never
  | first :: rest => rest.foldl .or first

/-! ## What a condition selects -/

variable {row : SqlRow κ β} {params : List SqlParam}

@[simp] theorem satisfied_never : ¬Satisfied row params (.never : Condition κ β) := by
  simp [Satisfied, eval]

@[simp] theorem satisfied_flag (column : β) :
    Satisfied row params (.flag column : Condition κ β) ↔ row.flag column = true := by
  simp [Satisfied, eval]

@[simp] theorem satisfied_and (a b : Condition κ β) :
    Satisfied row params (.and a b) ↔ Satisfied row params a ∧ Satisfied row params b :=
  bothTrue_iff _ _

@[simp] theorem satisfied_or (a b : Condition κ β) :
    Satisfied row params (.or a b) ↔ Satisfied row params a ∨ Satisfied row params b :=
  eitherTrue_iff _ _

theorem satisfied_eq {column : κ} {n : ℕ} {value : String}
    (h : param params n = some (.text value)) :
    Satisfied row params (.eq column n : Condition κ β) ↔ row.text column = some value := by
  cases htext : row.text column <;> simp [Satisfied, eval, h, htext]

theorem satisfied_eqAny {column : κ} {n : ℕ} {values : List String}
    (h : param params n = some (.array values)) :
    Satisfied row params (.eqAny column n : Condition κ β) ↔
      ∃ text ∈ values, row.text column = some text := by
  cases htext : row.text column <;> simp [Satisfied, eval, h, htext]

theorem satisfied_like {column : κ} {n : ℕ} {value : String}
    (h : param params n = some (.text value)) :
    Satisfied row params (.like column n : Condition κ β) ↔
      ∃ text, row.text column = some text ∧ likeMatches value.toList text.toList = true := by
  cases htext : row.text column <;> simp [Satisfied, eval, h, htext]

theorem satisfied_joinAnd (first : Condition κ β) (rest : List (Condition κ β)) :
    Satisfied row params (joinAnd first rest) ↔ ∀ c ∈ first :: rest, Satisfied row params c := by
  induction rest generalizing first with
  | nil => simp [joinAnd]
  | cons c rest ih =>
    have hstep : joinAnd first (c :: rest) = joinAnd (.and first c) rest := rfl
    rw [hstep, ih]
    simp only [List.mem_cons, forall_eq_or_imp, satisfied_and, and_assoc]

theorem satisfied_joinOr (conditions : List (Condition κ β)) :
    Satisfied row params (joinOr conditions) ↔ ∃ c ∈ conditions, Satisfied row params c := by
  cases conditions with
  | nil => simp [joinOr]
  | cons first rest =>
    induction rest generalizing first with
    | nil => simp [joinOr]
    | cons c rest ih =>
      have hstep : joinOr (first :: c :: rest) = joinOr (.or first c :: rest) := rfl
      rw [hstep, ih]
      simp only [List.mem_cons, exists_eq_or_imp, satisfied_or, or_assoc]

/-- A pattern of plain characters before one `%` matches the texts that start with them. -/
theorem likeMatches_front {front : List Char} (hplain : ∀ c ∈ front, c ≠ '%' ∧ c ≠ '_' ∧ c ≠ '\\')
    (text : List Char) : likeMatches (front ++ ['%']) text = front.isPrefixOf text := by
  induction front generalizing text with
  | nil =>
    simp only [List.nil_append, likeMatches, List.isPrefixOf_nil_left, List.any_eq_true]
    exact ⟨[], (List.mem_tails _ _).mpr (List.nil_suffix), rfl⟩
  | cons c front ih =>
    obtain ⟨⟨hpercent, hunderscore, hslash⟩, hrest⟩ := List.forall_mem_cons.mp hplain
    cases text with
    | nil => simp [likeMatches, hslash]
    | cons d text => simp [likeMatches, hslash, List.isPrefixOf, ih hrest]

/-! ## Building -/

/-- What a piece of a clause adds: conditions and the parameters appended for them. -/
abbrev Piece (κ β : Type) := List (Condition κ β) × List SqlParam

/-- The piece appends parameters, and one of its conditions selects the row where `meaning`
holds, whatever is appended later. -/
structure Builds (row : SqlRow κ β) (params : List SqlParam) (piece : Piece κ β)
    (meaning : Prop) : Prop where
  /-- The parameters that were there stay. -/
  grows : ∃ more, piece.2 = params ++ more
  /-- What the conditions select. -/
  means : ∀ later, (∃ c ∈ piece.1, Satisfied row (piece.2 ++ later) c) ↔ meaning

/-- The parameter that was appended last keeps its number. -/
theorem param_pushed (params : List SqlParam) (value : SqlParam) (later : List SqlParam) :
    param (params ++ [value] ++ later) (params ++ [value]).length = some value := by
  simp [param]

theorem Builds.none (params : List SqlParam) : Builds row params ([], params) False where
  grows := ⟨[], (List.append_nil params).symm⟩
  means := by simp

/-- One condition with one parameter of its own. -/
theorem Builds.single {value : SqlParam} {c : Condition κ β} {meaning : Prop}
    (h : ∀ later, Satisfied row (params ++ [value] ++ later) c ↔ meaning) :
    Builds row params ([c], params ++ [value]) meaning where
  grows := ⟨[value], rfl⟩
  means later := by simpa using h later

/-- Two pieces, one after the other. -/
theorem Builds.append {first second : Piece κ β} {p q : Prop} (h : Builds row params first p)
    (h' : Builds row first.2 second q) :
    Builds row params (first.1 ++ second.1, second.2) (p ∨ q) where
  grows := by
    obtain ⟨more, hmore⟩ := h.grows
    obtain ⟨more', hmore'⟩ := h'.grows
    exact ⟨more ++ more', by rw [hmore', hmore, List.append_assoc]⟩
  means later := by
    obtain ⟨more, hmore⟩ := h'.grows
    have hfirst := h.means (more ++ later)
    rw [← List.append_assoc, ← hmore] at hfirst
    rw [← hfirst, ← h'.means later]
    simp only [List.mem_append, or_and_right, exists_or]

end FactoryServer.SqlConditions
