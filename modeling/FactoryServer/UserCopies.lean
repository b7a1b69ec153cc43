import FactoryServer.GuardedRuns
import FactoryServer.UserRows

/-!
# Copies of columns in a user's blob

What the blob of a user holds under the name of a column hides the column from `findOne`.
An `update` of what `findOne` read puts such copies there. So the columns are reported as
long as no copy differs from its column, and giving a role leaves everything else alone when
the blob already is the copy that the update would write.
-/

namespace FactoryServer.UserCopies

open GuardedRuns InsertionMaps JsonbValues UserRows

/-! ## What a user reads as -/

/-- The columns that `findOne` is to report. -/
def reportedKeys : List String :=
  ["userId", "email", "contactEmail", "emailVerifiedAt", "mustChangePassword",
    "lastSelectedProviderId"]

/-- What a column holds, under the name it is reported by. -/
def column (row : UserRow) (key : String) : Option Jsonb := (columnFields row).lookup key

/-- What the blob of a row lays over the columns. -/
def blob (row : UserRow) : JsObject := JsObject.empty.assign (spread row.data)

/-- `findOne` reports the columns of every user. -/
def Reports (table : UsersTable) : Prop :=
  ∀ row ∈ table.rows, ∃ user, findOne table row.email = some user ∧
    ∀ key ∈ reportedKeys, user.get key = column row key

/-- No blob holds another value under the name of a column. -/
def Unshadowed (table : UsersTable) : Prop :=
  ∀ row ∈ table.rows, ∀ key ∈ reportedKeys,
    (blob row).get key = none ∨ (blob row).get key = column row key

@[simp] theorem get_setName_self (object : JsObject) (name : String) (value : Option Jsonb) :
    (setName object name value).get name = value := by
  cases value with
  | none => exact (object.get_drop [name] name).trans (if_pos List.mem_cons_self)
  | some value => exact (object.get_put name value name).trans (if_pos rfl)

theorem get_setName_of_ne (object : JsObject) {name key : String} (value : Option Jsonb)
    (hne : key ≠ name) : (setName object name value).get key = object.get key := by
  cases value with
  | none => exact (object.get_drop [name] key).trans (if_neg (by simpa using hne))
  | some value => exact (object.get_put name value key).trans (if_neg hne)

/-- The columns have distinct names. -/
theorem nodup_columnFields (row : UserRow) : ((columnFields row).map Prod.fst).Nodup := by
  have hkeys : (columnFields row).map Prod.fst = ["userId", "email", "password",
      "lastSelectedProviderId", "mustChangePassword", "contactEmail", "emailVerifiedAt", "roles",
      "permissions"] := rfl
  rw [hkeys]
  decide

/-- The names stand beside what else is read. -/
theorem get_withNames (row : UserRow) (object : JsObject) (key : String) :
    (withNames row object).get key =
      if key = "lastName" then coalesceName row.data "lastName" row.standardFamilyName
      else if key = "firstName" then coalesceName row.data "firstName" row.standardGivenName
      else object.get key := by
  unfold withNames
  split_ifs with hlast hfirst
  · rw [hlast, get_setName_self]
  · rw [get_setName_of_ne _ _ hlast, hfirst, get_setName_self]
  · rw [get_setName_of_ne _ _ hlast, get_setName_of_ne _ _ hfirst]

/-- A user reads as the blob, and where the blob has nothing, as the columns. -/
theorem get_projection (row : UserRow) (key : String) :
    (projection row).get key =
      if key = "lastName" then coalesceName row.data "lastName" row.standardFamilyName
      else if key = "firstName" then coalesceName row.data "firstName" row.standardGivenName
      else ((blob row).get key).or (column row key) := by
  unfold projection
  rw [get_withNames, JsObject.get_assign, JsObject.get_assign_empty (nodup_columnFields row)]
  rfl

/-- A name the code gives to no column of the two names. -/
theorem get_projection_of_ne (row : UserRow) {key : String} (hlast : key ≠ "lastName")
    (hfirst : key ≠ "firstName") :
    (projection row).get key = ((blob row).get key).or (column row key) := by
  rw [get_projection, if_neg hlast, if_neg hfirst]

/-- The user of an email is the row with that email. -/
theorem findOne_of_mem {table : UsersTable} {row : UserRow} (hrow : row ∈ table.rows) :
    findOne table row.email = some (projection row) := by
  unfold findOne
  cases hfind : table.rows.find? fun other => other.email = row.email with
  | none =>
    have hnone := List.find?_eq_none.mp hfind row hrow
    exact absurd (decide_eq_true rfl) hnone
  | some other =>
    have hemail : other.email = row.email := by simpa using List.find?_some hfind
    have hother : other ∈ table.rows := List.mem_of_find?_eq_some hfind
    rw [List.inj_on_of_nodup_map table.emails hother hrow hemail]
    rfl

/-- What `findOne` reports is what the columns hold when no copy differs. -/
theorem reports_iff (table : UsersTable) : Reports table ↔ Unshadowed table := by
  have hrow : ∀ row, ∀ key ∈ reportedKeys, (projection row).get key = column row key ↔
      (blob row).get key = none ∨ (blob row).get key = column row key := by
    intro row key hkey
    have hlast : key ≠ "lastName" := by
      rintro rfl
      exact absurd hkey (by decide)
    have hfirst : key ≠ "firstName" := by
      rintro rfl
      exact absurd hkey (by decide)
    rw [get_projection_of_ne row hlast hfirst]
    cases hblob : (blob row).get key with
    | none => simp
    | some value => simp
  constructor
  · intro h row hin key hkey
    obtain ⟨user, huser, hreads⟩ := h row hin
    obtain rfl := Option.some.inj ((findOne_of_mem hin).symm.trans huser)
    exact (hrow row key hkey).mp (hreads key hkey)
  · intro h row hin
    exact ⟨projection row, findOne_of_mem hin, fun key hkey =>
      (hrow row key hkey).mpr (h row hin key hkey)⟩

/-! ## What an update writes back -/

/-- The columns whose values an update of a read user puts into the blob. -/
def copiedKeys : List String :=
  ["userId", "email", "lastSelectedProviderId", "contactEmail", "emailVerifiedAt"]

/-- A name that the blob keeps: it is no `null`, and no standard name takes its place. -/
def NameKept (object : JsObject) (name : String) (standard : Option String) : Prop :=
  object.get name ≠ some .null ∧ (object.get name = none → standard = none)

/-- The blob already is the copy that an update would write. -/
structure CopyComplete (row : UserRow) : Prop where
  object : ∃ fields, row.data = some (.obj fields)
  copied : ∀ key ∈ copiedKeys, (blob row).get key ≠ none
  taken : ∀ key ∈ takenKeys, (blob row).get key = none
  firstName : NameKept (blob row) "firstName" row.standardGivenName
  lastName : NameKept (blob row) "lastName" row.standardFamilyName

/-- The row still has what the read row had beside the columns that are written alone. -/
structure SameBlob (row old : UserRow) : Prop where
  data : row.data = old.data
  permissions : row.permissions = old.permissions
  givenName : row.standardGivenName = old.standardGivenName
  familyName : row.standardFamilyName = old.standardFamilyName

theorem SameBlob.trans {row old older : UserRow} (h : SameBlob row old) (h' : SameBlob old older) :
    SameBlob row older :=
  ⟨h.data.trans h'.data, h.permissions.trans h'.permissions, h.givenName.trans h'.givenName,
    h.familyName.trans h'.familyName⟩

/-- A column has a value in the blob's copy, or it has its own place, or there is none. -/
theorem column_eq_none_iff (row : UserRow) {key : String} (hkey : key ∉ takenKeys) :
    column row key = none ↔ key ∉ copiedKeys := by
  simp only [takenKeys, List.mem_cons, List.not_mem_nil, or_false, not_or] at hkey
  obtain ⟨hpassword, hroles, hpermissions, hmust, -⟩ := hkey
  unfold column
  rw [List.lookup_eq_none_iff]
  simp [columnFields, copiedKeys, hpassword, hroles, hpermissions, hmust]

/-- A name is read as the blob has it when the blob keeps it. -/
theorem coalesceName_eq_iff {object : JsObject} {data : Option Jsonb} {name : String}
    (hget : data.bind (·.get name) = object.get name) (standard : Option String) :
    coalesceName data name standard = object.get name ↔ NameKept object name standard := by
  unfold coalesceName NameKept
  rw [hget]
  cases object.get name with
  | none => simp
  | some value =>
    cases value with
    | null => cases standard <;> simp
    | _ => simp

/-- What becomes of the blob when a read user is written back. -/
theorem get_stored (old : UserRow) (roles : Jsonb) (key : String) :
    (((projection old).put "roles" roles).drop takenKeys).get key =
      if key ∈ takenKeys then none else (projection old).get key := by
  rw [JsObject.get_drop, JsObject.get_put]
  split_ifs with htaken hroles
  · rfl
  · exact absurd (hroles ▸ by decide) htaken
  · rfl

/-- A blob that is an object reads as its fields. -/
theorem get_blob {row : UserRow} {fields : List (String × Jsonb)}
    (hdata : row.data = some (.obj fields)) (key : String) :
    (blob row).get key = fields.lookup key := by
  unfold blob
  rw [hdata]
  exact JsObject.get_assign_empty (row.ordered fields hdata).nodup key

/-- A user that is written back leaves the blob as it is when the blob is that copy. -/
theorem stored_eq_iff {row old : UserRow} (hsame : SameBlob row old) (roles : Jsonb) :
    some (((projection old).put "roles" roles).drop takenKeys).value = row.data ↔
      CopyComplete row := by
  have hblob : blob old = blob row := by
    unfold blob
    rw [hsame.data]
  have hreads : ∀ fields, row.data = some (.obj fields) →
      (some (((projection old).put "roles" roles).drop takenKeys).value = row.data ↔
        ∀ key, (if key ∈ takenKeys then none else (projection old).get key) =
          (blob row).get key) := by
    intro fields hdata
    rw [hdata]
    constructor
    · intro h key
      have hfields : (((projection old).put "roles" roles).drop takenKeys).fields = fields := by
        simpa [JsObject.value] using h
      rw [← get_stored old roles, get_blob hdata, ← hfields]
      rfl
    · intro h
      have hobject : ((projection old).put "roles" roles).drop takenKeys =
          ⟨fields, row.ordered fields hdata⟩ := by
        refine JsObject.ext_get fun key => ?_
        rw [get_stored, h key, get_blob hdata]
        rfl
      rw [hobject]
      rfl
  have hname : ∀ fields, row.data = some (.obj fields) → ∀ name,
      old.data.bind (·.get name) = (blob row).get name := by
    intro fields hdata name
    rw [get_blob hdata, ← hsame.data, hdata]
    rfl
  constructor
  · intro h
    have hdata : row.data = some (.obj _) := h.symm
    have hall := (hreads _ hdata).mp h
    refine ⟨⟨_, hdata⟩, fun key hkey hnone => ?_, fun key hkey => ?_, ?_, ?_⟩
    · have htaken : key ∉ takenKeys := by
        intro hin
        simp only [copiedKeys, List.mem_cons, List.not_mem_nil, or_false] at hkey
        obtain rfl | rfl | rfl | rfl | rfl := hkey <;> exact absurd hin (by decide)
      have hlast : key ≠ "lastName" := by
        rintro rfl
        exact absurd hkey (by decide)
      have hfirst : key ≠ "firstName" := by
        rintro rfl
        exact absurd hkey (by decide)
      have hread := hall key
      rw [if_neg htaken, get_projection_of_ne old hlast hfirst, hblob, hnone,
        Option.none_or] at hread
      exact (column_eq_none_iff old htaken).mp hread hkey
    · have hread := hall key
      rw [if_pos hkey] at hread
      exact hread.symm
    · have hread := hall "firstName"
      rw [if_neg (by decide), get_projection, if_neg (by decide), if_pos rfl] at hread
      rw [hsame.givenName]
      exact (coalesceName_eq_iff (hname _ hdata "firstName") _).mp hread
    · have hread := hall "lastName"
      rw [if_neg (by decide), get_projection, if_pos rfl] at hread
      rw [hsame.familyName]
      exact (coalesceName_eq_iff (hname _ hdata "lastName") _).mp hread
  · intro h
    obtain ⟨fields, hdata⟩ := h.object
    refine (hreads fields hdata).mpr fun key => ?_
    by_cases htaken : key ∈ takenKeys
    · rw [if_pos htaken, h.taken key htaken]
    · rw [if_neg htaken, get_projection]
      split_ifs with hlast hfirst
      · rw [hlast]
        exact (coalesceName_eq_iff (hname _ hdata "lastName") _).mpr (hsame.familyName ▸ h.lastName)
      · rw [hfirst]
        exact (coalesceName_eq_iff (hname _ hdata "firstName") _).mpr
          (hsame.givenName ▸ h.firstName)
      · rw [hblob]
        cases hvalue : (blob row).get key with
        | some value => rfl
        | none =>
          rw [Option.none_or]
          exact (column_eq_none_iff old htaken).mpr fun hin => h.copied key hin hvalue

end FactoryServer.UserCopies
