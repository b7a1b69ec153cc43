import FactoryServer.InsertionMaps
import FactoryServer.JsonbValues

/-!
# The rows of `users`

A user is a row with columns and a blob, `data`. `findOne` spreads the blob over what the
columns hold. `update` takes a whole object: four of its properties go to columns, and the
rest becomes the blob. Other updates write single columns. A representative of a
provisioner is a user with a role, which `assignUserToProvisioner` gives by an `update` of
the object that `findOne` read.
-/

namespace FactoryServer.UserRows

open InsertionMaps JsonbValues

/-- `PROVISIONER`, the role of a representative. -/
def provisionerRole : Jsonb := .str "provisioner"

/-- A row of `users`. -/
structure UserRow where
  /-- The primary key. -/
  userId : String
  /-- The login. -/
  email : String
  /-- The hash, `NOT NULL`. -/
  password : String
  lastSelectedProviderId : Option String
  mustChangePassword : Bool
  contactEmail : Option String
  /-- The time in the form JSON gives it. -/
  emailVerifiedAt : Option String
  roles : Option Jsonb
  permissions : Option Jsonb
  /-- The blob. -/
  data : Option Jsonb
  lastAccess : Option String
  standardGivenName : Option String
  standardFamilyName : Option String
  /-- An object of a jsonb column has each key once, in order. -/
  ordered : ∀ fields, data = some (.obj fields) → Ordered fields
  deriving DecidableEq

/-- The rows of `users`, unique by either key. -/
structure UsersTable where
  rows : List UserRow
  emails : (rows.map (·.email)).Nodup
  ids : (rows.map (·.userId)).Nodup

/-- A statement that leaves both keys as they are. -/
def UsersTable.modify (table : UsersTable) (write : UserRow → UserRow)
    (hemail : ∀ row, (write row).email = row.email)
    (hid : ∀ row, (write row).userId = row.userId) : UsersTable where
  rows := table.rows.map write
  emails := by
    rw [List.map_map]
    exact (List.map_congr_left fun row _ => hemail row) ▸ table.emails
  ids := by
    rw [List.map_map]
    exact (List.map_congr_left fun row _ => hid row) ▸ table.ids

/-! ## Reading a user -/

/-- A nullable text as a program reads it. -/
def nullable (text : Option String) : Jsonb := text.elim .null .str

/-- What `findOne` reads of the columns. -/
def columnFields (row : UserRow) : List (String × Jsonb) :=
  [("userId", .str row.userId), ("email", .str row.email), ("password", .str row.password),
    ("lastSelectedProviderId", nullable row.lastSelectedProviderId),
    ("mustChangePassword", .bool row.mustChangePassword),
    ("contactEmail", nullable row.contactEmail),
    ("emailVerifiedAt", nullable row.emailVerifiedAt),
    ("roles", row.roles.getD .null), ("permissions", row.permissions.getD .null)]

/-- `row.data?.name ?? row.standard_name ?? undefined`. -/
def coalesceName (data : Option Jsonb) (name : String) (standard : Option String) :
    Option Jsonb :=
  match data.bind (·.get name) with
  | none | some .null => standard.map .str
  | some value => some value

/-- A property that may be `undefined`, which JSON leaves out. -/
def setName (object : JsObject) (name : String) : Option Jsonb → JsObject
  | some value => object.put name value
  | none => object.drop [name]

/-- The names stand after the other properties. -/
def withNames (row : UserRow) (object : JsObject) : JsObject :=
  setName (setName object "firstName" (coalesceName row.data "firstName" row.standardGivenName))
    "lastName" (coalesceName row.data "lastName" row.standardFamilyName)

/-- The object `findOne` makes of a row. -/
def projection (row : UserRow) : JsObject :=
  withNames row ((JsObject.empty.assign (columnFields row)).assign (spread row.data))

/-- `findOne`. -/
def findOne (table : UsersTable) (email : String) : Option JsObject :=
  (table.rows.find? fun row => row.email = email).map projection

/-- The `value` that `findAll` makes of a row, given the providers of its user. -/
def listedValue (providerIds : List String) (row : UserRow) : JsObject :=
  withNames row ((JsObject.empty.assign (spread row.data)).assign
    [("userId", .str row.userId), ("email", .str row.email),
      ("providerIds", .arr (providerIds.map .str)), ("roles", row.roles.getD .null),
      ("permissions", row.permissions.getD .null), ("lastAccess", nullable row.lastAccess)])

/-- `findAll`: each user stands under `value`, beside its `key`. -/
def findAll (table : UsersTable) (providersOf : String → List String) : List JsObject :=
  table.rows.map fun row => JsObject.empty.assign
    [("key", .str row.email), ("value", (listedValue (providersOf row.userId) row).value)]

/-! ## Writing a user -/

/-- A parameter of a text column; the driver writes what is no string by `render`. -/
def paramText (render : Jsonb → String) : Option Jsonb → Option String
  | none | some .null => none
  | some (.str s) => some s
  | some value => some (render value)

/-- `Boolean(value)`. -/
def truthy : Option Jsonb → Bool
  | none | some .null => false
  | some (.bool b) => b
  | some (.num q) => q ≠ 0
  | some (.str s) => s ≠ ""
  | some _ => true

/-- The properties that `update` does not put into the blob. -/
def takenKeys : List String :=
  ["password", "roles", "permissions", "mustChangePassword", "providerId"]

/-- The row that `update` leaves, given the text of its password. -/
def overwrite (password : String) (object : JsObject) (row : UserRow) : UserRow :=
  { row with
    password
    roles := some ((object.get "roles").getD (.arr []))
    permissions := some ((object.get "permissions").getD (.arr []))
    mustChangePassword := truthy (object.get "mustChangePassword")
    data := some (object.drop takenKeys).value
    ordered := by
      rintro fields h
      cases h
      exact (object.drop takenKeys).ordered }

/-- `UPDATE users SET … WHERE email = $1`; a missing password is refused if a row is meant. -/
def update (render : Jsonb → String) (email : String) (object : JsObject)
    (table : UsersTable) : Option UsersTable :=
  match paramText render (object.get "password") with
  | some password =>
    some (table.modify (fun row => if row.email = email then overwrite password object row else row)
      (fun row => by split_ifs <;> rfl) fun row => by split_ifs <;> rfl)
  | none => if table.rows.any fun row => row.email = email then none else some table

/-- The updates of single columns. -/
inductive ColumnWrite where
  | completeFirstLogin (email hashedPassword : String)
  | setPasswordByUserId (userId hashedPassword : String)
  | setContactEmail (userId contactEmail : String)
  /-- `now` is the time of the database. -/
  | markEmailVerified (userId now : String)
  | updateLastSelectedProviderId (email : String) (providerId : Option String)
  deriving DecidableEq

/-- The `WHERE` of an update. -/
def ColumnWrite.selects : ColumnWrite → UserRow → Bool
  | .completeFirstLogin email _, row => row.email = email
  | .setPasswordByUserId userId _, row => row.userId = userId
  | .setContactEmail userId _, row => row.userId = userId
  | .markEmailVerified userId _, row => row.userId = userId
  | .updateLastSelectedProviderId email _, row => row.email = email

/-- The `SET` of an update. -/
def ColumnWrite.write : ColumnWrite → UserRow → UserRow
  | .completeFirstLogin _ hashedPassword, row =>
    { row with password := hashedPassword, mustChangePassword := false }
  | .setPasswordByUserId _ hashedPassword, row =>
    { row with password := hashedPassword, mustChangePassword := false }
  | .setContactEmail _ contactEmail, row =>
    { row with contactEmail := some contactEmail, emailVerifiedAt := none }
  | .markEmailVerified _ now, row => { row with emailVerifiedAt := some now }
  | .updateLastSelectedProviderId _ providerId, row =>
    { row with lastSelectedProviderId := providerId }

/-- The statement as it changes a row. -/
def ColumnWrite.apply (w : ColumnWrite) (row : UserRow) : UserRow :=
  if w.selects row then w.write row else row

theorem ColumnWrite.apply_keys (w : ColumnWrite) (row : UserRow) :
    (w.apply row).email = row.email ∧ (w.apply row).userId = row.userId := by
  unfold ColumnWrite.apply
  split_ifs
  · cases w <;> exact ⟨rfl, rfl⟩
  · exact ⟨rfl, rfl⟩

/-! ## Representatives of provisioners -/

/-- Where a call of `assignUserToProvisioner` stands. -/
inductive Stage where
  | idle
  /-- Before the answer of `update`. -/
  | updating (email : String) (user : JsObject) (provisionerId : String)
  /-- Before the answer of `associate`. -/
  | associating (userId : Option Jsonb) (provisionerId : String)

/-- The database, and the calls of `assignUserToProvisioner`. -/
structure State (ι : Type) where
  table : UsersTable
  provisioners : List String
  /-- `user_provisioners`. -/
  associations : List (String × String)
  /-- The providers of each user, in the order of `findAll`. -/
  providersOf : String → List String
  calls : ι → Stage

/-- A database that no call has touched. -/
def opened (ι : Type) (table : UsersTable) (provisioners : List String)
    (associations : List (String × String)) (providersOf : String → List String) : State ι :=
  ⟨table, provisioners, associations, providersOf, fun _ => .idle⟩

variable {ι : Type} [DecidableEq ι]

/-- The call goes on elsewhere. -/
def State.moveTo (s : State ι) (c : ι) (stage : Stage) : State ι :=
  { s with calls := Function.update s.calls c stage }

/-- `Array.isArray(user.roles) ? [...user.roles] : []`. -/
def rolesOf (user : JsObject) : List Jsonb := elements (user.get "roles")

/-- `assignUserToProvisioner`, to its first write. -/
def assignUser (s : State ι) (c : ι) (provisionerId email : String) : State ι :=
  if provisionerId ∈ s.provisioners then
    match findOne s.table email with
    | none => s
    | some user =>
      if truthy (user.get "userId") then
        if provisionerRole ∈ rolesOf user then
          s.moveTo c (.associating (user.get "userId") provisionerId)
        else
          s.moveTo c (.updating email (user.put "roles" (.arr (rolesOf user ++ [provisionerRole])))
            provisionerId)
      else s
  else s

/-- `associate`; a user id that no row has breaks the foreign key. -/
def associate (s : State ι) (userId : Option Jsonb) (provisionerId : String) : State ι :=
  match s.table.rows.find? fun row => userId = some (.str row.userId) with
  | some row => { s with associations := addItem s.associations (row.userId, provisionerId) }
  | none => s

/-- The next write of a call; an update that throws ends it. -/
def advance (render : Jsonb → String) (s : State ι) (c : ι) : State ι :=
  match s.calls c with
  | .idle => s
  | .updating email user provisionerId =>
    match update render email user s.table with
    | some table => { s with table }.moveTo c (.associating (user.get "userId") provisionerId)
    | none => s.moveTo c .idle
  | .associating userId provisionerId => (associate s userId provisionerId).moveTo c .idle

/-- The part of `removeUserFromProvisioner` that takes the role away. -/
def stripRole (render : Jsonb → String) (table : UsersTable)
    (providersOf : String → List String) (userId : String) : UsersTable :=
  match (findAll table providersOf).find? fun x => x.get "userId" = some (.str userId) with
  | none => table
  | some u =>
    match u.get "email", u.get "roles" with
    | some (.str email), some (.arr roles) =>
      if email ≠ "" ∧ provisionerRole ∈ roles then
        (update render email (u.put "roles" (.arr (roles.filter fun r => r ≠ provisionerRole)))
          table).getD table
      else table
    | _, _ => table

/-- `removeUserFromProvisioner`. -/
def removeUser (render : Jsonb → String) (s : State ι) (provisionerId userId : String) : State ι :=
  let associations := s.associations.filter fun pair => pair ≠ (userId, provisionerId)
  if associations.any fun pair => pair.1 = userId then { s with associations }
  else { s with associations, table := stripRole render s.table s.providersOf userId }

/-- What happens to the rows of `users`. -/
inductive Action (ι : Type) where
  | assign (c : ι) (provisionerId email : String)
  | advance (c : ι)
  | remove (provisionerId userId : String)
  | column (w : ColumnWrite)

/-- One step. A call is made once at a time. -/
def step (render : Jsonb → String) (s : State ι) : Action ι → State ι
  | .assign c provisionerId email =>
    match s.calls c with
    | .idle => assignUser s c provisionerId email
    | _ => s
  | .advance c => advance render s c
  | .remove provisionerId userId => removeUser render s provisionerId userId
  | .column w =>
    { s with
      table := s.table.modify w.apply (fun row => (w.apply_keys row).1)
        (fun row => (w.apply_keys row).2) }

end FactoryServer.UserRows
