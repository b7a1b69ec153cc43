import FactoryServer.UserCopies

/-!
# What the updates of users change

Giving a role writes a whole user back. The other updates write their columns. Runs of both
report the columns, and give roles only, as long as every user that is written back already
has the copy of its columns that the update would store, its password and its flag are what
they were when it was read, and no column is written that the blob has a copy of.
-/

namespace FactoryServer.UserFrames

open GuardedRuns InsertionMaps JsonbValues UserCopies UserRows

variable {ι : Type} [DecidableEq ι] {render : Jsonb → String}

/-! ## What a step should change -/

/-- A row without its roles. -/
def forgetRoles (row : UserRow) : UserRow := { row with roles := none }

/-- Nothing but roles differs. -/
def OnlyRoles (before after : UsersTable) : Prop :=
  after.rows.map forgetRoles = before.rows.map forgetRoles

/-- A step of assigning or removing a provisioner changes no column but the roles. -/
def Framed (render : Jsonb → String) (s : State ι) (a : Action ι) : Prop :=
  match a with
  | .column _ => True
  | a => OnlyRoles s.table (step render s a).table

/-- A contact email was set and no verification came since. -/
def awaiting (actions : List (Action ι)) (userId : String) : Bool :=
  actions.foldl (fun waiting a =>
    match a with
    | .column (.setContactEmail changed _) => waiting || changed = userId
    | .column (.markEmailVerified verified _) => waiting && verified ≠ userId
    | _ => waiting) false

/-- A user whose new contact email is not verified does not read as verified. -/
def Unverified (actions : List (Action ι)) (table : UsersTable) : Prop :=
  ∀ row ∈ table.rows, awaiting actions row.userId = true →
    ∃ user, findOne table row.email = some user ∧ user.get "emailVerifiedAt" = some .null

/-! ## The condition -/

/-- A user that a call holds leaves all but the roles of a row as they are: the blob has the
copy that is written, and the password and the flag are those of the row. -/
structure Spares (user : JsObject) (row : UserRow) : Prop where
  copy : CopyComplete row
  permissions : row.permissions ≠ none
  password : user.get "password" = some (.str row.password)
  mustChangePassword : user.get "mustChangePassword" = some (.bool row.mustChangePassword)

/-- The values that an update of columns writes, of those that are reported. -/
def values : ColumnWrite → List (String × Jsonb)
  | .completeFirstLogin _ _ | .setPasswordByUserId _ _ => [("mustChangePassword", .bool false)]
  | .setContactEmail _ contactEmail =>
    [("contactEmail", .str contactEmail), ("emailVerifiedAt", .null)]
  | .markEmailVerified _ now => [("emailVerifiedAt", .str now)]
  | .updateLastSelectedProviderId _ providerId =>
    [("lastSelectedProviderId", nullable providerId)]

/-- What a step must find. A user is written back where the blob is the copy already, and a
column where the blob has no copy of it, or the column has the value already. -/
def Spared (render : Jsonb → String) (s : State ι) : Action ι → Prop
  | .advance c =>
    match s.calls c with
    | .updating email user _ =>
      paramText render (user.get "password") ≠ none →
        ∀ row ∈ s.table.rows, row.email = email → Spares user row
    | _ => True
  | .column w =>
    ∀ row ∈ s.table.rows, w.selects row → ∀ value ∈ values w,
      (blob row).get value.1 = none ∨ column row value.1 = some value.2
  | _ => True

/-! ## One update -/

/-- A statement changes roles only when it does so in every row. -/
theorem onlyRoles_modify {table : UsersTable} {write : UserRow → UserRow}
    {hemail : ∀ row, (write row).email = row.email}
    {hid : ∀ row, (write row).userId = row.userId} :
    OnlyRoles table (table.modify write hemail hid) ↔
      ∀ row ∈ table.rows, forgetRoles (write row) = forgetRoles row := by
  unfold OnlyRoles UsersTable.modify
  rw [List.map_map]
  exact List.map_inj_left

/-- What an update of a whole user leaves of the row. -/
theorem forgetRoles_overwrite (password : String) (user : JsObject) (row : UserRow) :
    forgetRoles (overwrite password user row) = forgetRoles row ↔
      password = row.password ∧ some ((user.get "permissions").getD (.arr [])) = row.permissions ∧
        truthy (user.get "mustChangePassword") = row.mustChangePassword ∧
        some (user.drop takenKeys).value = row.data := by
  simp only [forgetRoles, overwrite, UserRow.mk.injEq, true_and, and_true]
  tauto

/-- A user that was read and got new roles, written back on its row. -/
theorem forgetRoles_iff {row old : UserRow} (hsame : SameBlob row old) {roles : Jsonb}
    {user : JsObject} (huser : user = (projection old).put "roles" roles) {password : String}
    (hpassword : paramText render (user.get "password") = some password) :
    forgetRoles (overwrite password user row) = forgetRoles row ↔ Spares user row := by
  have hblob : blob old = blob row := by
    unfold blob
    rw [hsame.data]
  have hget : CopyComplete row → ∀ key ∈ takenKeys, key ≠ "roles" →
      user.get key = column old key := by
    intro hcopy key hkey hroles
    have hlast : key ≠ "lastName" := by
      rintro rfl
      exact absurd hkey (by decide)
    have hfirst : key ≠ "firstName" := by
      rintro rfl
      exact absurd hkey (by decide)
    rw [huser, JsObject.get_put, if_neg hroles, get_projection_of_ne old hlast hfirst, hblob,
      hcopy.taken key hkey, Option.none_or]
  have htext : CopyComplete row → user.get "password" = some (.str old.password) := fun hcopy =>
    hget hcopy "password" (by decide) (by decide)
  have hflag : CopyComplete row →
      user.get "mustChangePassword" = some (.bool old.mustChangePassword) := fun hcopy =>
    hget hcopy "mustChangePassword" (by decide) (by decide)
  have hpermissions : CopyComplete row →
      user.get "permissions" = some (old.permissions.getD .null) := fun hcopy =>
    hget hcopy "permissions" (by decide) (by decide)
  have hstored : some (user.drop takenKeys).value = row.data ↔ CopyComplete row :=
    huser ▸ stored_eq_iff hsame roles
  rw [forgetRoles_overwrite]
  constructor
  · rintro ⟨hsameText, hpermitted, hmust, hdata⟩
    have hcopy := hstored.mp hdata
    refine ⟨hcopy, fun hnone => ?_, ?_, ?_⟩
    · rw [hnone] at hpermitted
      cases hpermitted
    · rw [htext hcopy] at hpassword ⊢
      rw [← hsameText, ← Option.some.inj hpassword]
    · rw [hflag hcopy] at hmust ⊢
      rw [← hmust]
      rfl
  · rintro ⟨hcopy, hpermitted, hsameText, hmust⟩
    refine ⟨?_, ?_, ?_, hstored.mpr hcopy⟩
    · rw [hsameText] at hpassword
      exact (Option.some.inj hpassword).symm
    · rw [hpermissions hcopy, ← hsame.permissions]
      obtain ⟨permissions, hsome⟩ := Option.ne_none_iff_exists'.mp hpermitted
      rw [hsome]
      rfl
    · rw [hmust]
      rfl

/-! ## One step -/

variable {s : State ι}

/-- A call of `assignUserToProvisioner` starts by reading. -/
theorem assignUser_table (c : ι) (provisionerId email : String) :
    (assignUser s c provisionerId email).table = s.table := by
  unfold assignUser
  split_ifs
  · cases findOne s.table email with
    | none => rfl
    | some user =>
      dsimp only
      split_ifs <;> rfl
  · rfl

/-- A call that runs already is not started again. -/
theorem step_assign (c : ι) (provisionerId email : String) :
    step render s (.assign c provisionerId email) = assignUser s c provisionerId email ∨
      step render s (.assign c provisionerId email) = s := by
  simp only [step]
  split
  · exact Or.inl rfl
  · exact Or.inr rfl

/-- `findAll` lists no user by its id: an entry has a key and a value. -/
theorem listed_userId (table : UsersTable) (providersOf : String → List String) :
    ∀ x ∈ findAll table providersOf, x.get "userId" = none := by
  intro x hx
  obtain ⟨row, -, rfl⟩ := List.mem_map.mp hx
  rw [JsObject.get_assign_empty (by simp)]
  simp [List.lookup_cons, List.lookup_nil]

/-- So no representative loses the role, and no row is written. -/
theorem stripRole_eq (table : UsersTable) (providersOf : String → List String) (userId : String) :
    stripRole render table providersOf userId = table := by
  have hnone : ((findAll table providersOf).find? fun x =>
      x.get "userId" = some (.str userId)) = none := by
    refine List.find?_eq_none.mpr fun x hx => ?_
    rw [listed_userId table providersOf x hx]
    simp
  unfold stripRole
  rw [hnone]

omit [DecidableEq ι] in
theorem removeUser_table (provisionerId userId : String) :
    (removeUser render s provisionerId userId).table = s.table := by
  unfold removeUser
  dsimp only
  split_ifs
  · rfl
  · exact stripRole_eq s.table s.providersOf userId

/-- Rows that differ in roles only have the same blobs and columns. -/
theorem columns_of_forgetRoles {row row' : UserRow} (h : forgetRoles row' = forgetRoles row) :
    row'.email = row.email ∧ row'.userId = row.userId ∧ SameBlob row' row ∧
      blob row' = blob row ∧ (∀ key ∈ reportedKeys, column row' key = column row key) ∧
      row'.emailVerifiedAt = row.emailVerifiedAt := by
  simp only [forgetRoles, UserRow.mk.injEq, true_and] at h
  obtain ⟨hid, hemail, -, hlast, hmust, hcontact, hverified, hpermissions, hdata, -, hgiven,
    hfamily⟩ := h
  refine ⟨hemail, hid, ⟨hdata, hpermissions, hgiven, hfamily⟩, ?_, ?_, hverified⟩
  · unfold blob
    rw [hdata]
  · simp [reportedKeys, column, columnFields, List.lookup_cons, List.lookup_nil, hid, hemail, hlast, hmust, hcontact,
      hverified]

/-- Where only roles differ, each row has one it comes from. -/
theorem exists_row {before after : UsersTable} (h : OnlyRoles before after) :
    ∀ row' ∈ after.rows, ∃ row ∈ before.rows, forgetRoles row' = forgetRoles row := by
  intro row' hrow'
  have hin : forgetRoles row' ∈ before.rows.map forgetRoles :=
    h ▸ List.mem_map_of_mem hrow'
  obtain ⟨row, hrow, heq⟩ := List.mem_map.mp hin
  exact ⟨row, hrow, heq.symm⟩

/-- Changes of roles hide no column. -/
theorem unshadowed_of_onlyRoles {before after : UsersTable} (h : OnlyRoles before after)
    (hbefore : Unshadowed before) : Unshadowed after := by
  intro row' hrow' key hkey
  obtain ⟨row, hrow, heq⟩ := exists_row h row' hrow'
  obtain ⟨-, -, -, hblob, hcolumn, -⟩ := columns_of_forgetRoles heq
  rw [hblob, hcolumn key hkey]
  exact hbefore row hrow key hkey

/-- An update of columns leaves the blob. -/
theorem blob_apply (w : ColumnWrite) (row : UserRow) :
    SameBlob (w.apply row) row ∧ blob (w.apply row) = blob row := by
  unfold ColumnWrite.apply
  split_ifs
  · cases w <;> exact ⟨⟨rfl, rfl, rfl, rfl⟩, rfl⟩
  · exact ⟨⟨rfl, rfl, rfl, rfl⟩, rfl⟩

/-- What an update of columns writes is reported under names of columns. -/
theorem mem_reportedKeys (w : ColumnWrite) : ∀ value ∈ values w, value.1 ∈ reportedKeys := by
  cases w <;> simp [values, reportedKeys]

/-- The columns after an update of columns. -/
theorem column_write (w : ColumnWrite) (row : UserRow) :
    ∀ key ∈ reportedKeys,
      column (w.write row) key = ((values w).lookup key).or (column row key) := by
  cases w <;>
    simp [reportedKeys, column, columnFields, values, ColumnWrite.write, List.lookup_cons, List.lookup_nil, nullable]

theorem nodup_values (w : ColumnWrite) : ((values w).map Prod.fst).Nodup := by
  cases w <;> simp [values]

/-- A row is not hidden by an update of columns when it meets the condition. -/
theorem unshadowed_write_iff (w : ColumnWrite) {row : UserRow}
    (hrow : ∀ key ∈ reportedKeys, (blob row).get key = none ∨
      (blob row).get key = column row key) :
    (∀ key ∈ reportedKeys, (blob row).get key = none ∨
        (blob row).get key = column (w.write row) key) ↔
      ∀ value ∈ values w, (blob row).get value.1 = none ∨ column row value.1 = some value.2 := by
  constructor
  · intro h value hvalue
    have hkey := mem_reportedKeys w value hvalue
    have hlookup : (values w).lookup value.1 = some value.2 :=
      lookup_of_mem (nodup_values w) hvalue
    have hafter := h value.1 hkey
    rw [column_write w row value.1 hkey, hlookup, Option.some_or] at hafter
    refine hafter.imp id fun hcopy => ?_
    obtain hnone | hbefore := hrow value.1 hkey
    · exact absurd (hnone.symm.trans hcopy) (by simp)
    · exact hbefore.symm.trans hcopy
  · intro h key hkey
    rw [column_write w row key hkey]
    cases hlookup : (values w).lookup key with
    | none => exact hrow key hkey
    | some value =>
      obtain ⟨before, after, hsplit, -⟩ := List.lookup_eq_some_iff.mp hlookup
      have hin : (key, value) ∈ values w := by
        rw [hsplit]
        exact List.mem_append_right _ List.mem_cons_self
      obtain hnone | hsame := h (key, value) hin
      · exact Or.inl hnone
      · exact (hrow key hkey).imp id fun hcopy => hcopy.trans hsame

/-- An update of columns hides none when it meets the condition, row by row. -/
theorem unshadowed_column_iff (w : ColumnWrite) (hbefore : Unshadowed s.table) :
    Unshadowed (step render s (.column w)).table ↔ Spared render s (.column w) := by
  have hrow : ∀ row ∈ s.table.rows, (∀ key ∈ reportedKeys, (blob (w.apply row)).get key = none ∨
      (blob (w.apply row)).get key = column (w.apply row) key) ↔
      (w.selects row = true → ∀ value ∈ values w,
        (blob row).get value.1 = none ∨ column row value.1 = some value.2) := by
    intro row hin
    rw [(blob_apply w row).2]
    unfold ColumnWrite.apply
    split_ifs with hselects
    · rw [unshadowed_write_iff w (hbefore row hin)]
      exact ⟨fun h _ => h, fun h => h hselects⟩
    · exact ⟨fun _ h => absurd h hselects, fun _ => hbefore row hin⟩
  constructor
  · intro h row hin
    exact (hrow row hin).mp fun key hkey =>
      h (w.apply row) (List.mem_map_of_mem hin) key hkey
  · intro h row' hin'
    obtain ⟨row, hin, rfl⟩ := List.mem_map.mp hin'
    exact (hrow row hin).mpr (h row hin)

/-! ## What calls hold -/

/-- The user a call holds was read from a row, and the row's blob is as it was. -/
def Held (s : State ι) : Prop :=
  ∀ c email user provisionerId, s.calls c = .updating email user provisionerId →
    ∃ old roles, user = (projection old).put "roles" roles ∧
      ∀ row ∈ s.table.rows, row.email = email → SameBlob row old

omit [DecidableEq ι] in
/-- Rows that keep their blobs keep what calls hold. -/
theorem Held.of_rows (h : Held s) {s' : State ι}
    (hrows : ∀ row' ∈ s'.table.rows, ∃ row ∈ s.table.rows, row'.email = row.email ∧
      SameBlob row' row)
    (hcalls : ∀ c email user provisionerId, s'.calls c = .updating email user provisionerId →
      s.calls c = .updating email user provisionerId) : Held s' := by
  intro c email user provisionerId hcall
  obtain ⟨old, roles, huser, hsame⟩ := h c email user provisionerId (hcalls _ _ _ _ hcall)
  refine ⟨old, roles, huser, fun row' hrow' hemail => ?_⟩
  obtain ⟨row, hrow, hkey, hblob⟩ := hrows row' hrow'
  exact hblob.trans (hsame row hrow (hkey.symm.trans hemail))

/-- A call that moves to a stage other than an update holds no user. -/
theorem updating_moveTo {c : ι} {stage : Stage}
    (hstage : ∀ email user provisionerId, stage ≠ .updating email user provisionerId) :
    ∀ d email user provisionerId,
      (s.moveTo c stage).calls d = .updating email user provisionerId →
        s.calls d = .updating email user provisionerId := by
  intro d email user provisionerId hcall
  unfold State.moveTo at hcall
  dsimp only at hcall
  by_cases hd : d = c
  · rw [hd, Function.update_self] at hcall
    exact absurd hcall (hstage email user provisionerId)
  · rwa [Function.update_of_ne hd] at hcall

/-- The rows themselves keep their blobs. -/
theorem sameBlob_refl (table : UsersTable) :
    ∀ row' ∈ table.rows, ∃ row ∈ table.rows, row'.email = row.email ∧ SameBlob row' row :=
  fun row hrow => ⟨row, hrow, rfl, rfl, rfl, rfl, rfl⟩

/-- A call that has read its user holds that user. -/
theorem held_assignUser (h : Held s) (c : ι) (provisionerId email : String) :
    Held (assignUser s c provisionerId email) := by
  unfold assignUser
  split_ifs
  · cases hfind : findOne s.table email with
    | none => exact h
    | some user =>
      dsimp only
      split_ifs
      · exact h.of_rows (sameBlob_refl s.table)
          (updating_moveTo fun _ _ _ heq => nomatch heq)
      · intro d other held pid hcall
        by_cases hd : d = c
        · unfold State.moveTo at hcall
          dsimp only at hcall
          rw [hd, Function.update_self] at hcall
          obtain ⟨rfl, rfl, rfl⟩ := Stage.updating.inj hcall
          obtain ⟨old, hold, rfl⟩ := Option.map_eq_some_iff.mp hfind
          refine ⟨old, _, rfl, fun row hrow hemail => ?_⟩
          have hemail' : old.email = email := by simpa using List.find?_some hold
          have hold' : old ∈ s.table.rows := List.mem_of_find?_eq_some hold
          obtain rfl := List.inj_on_of_nodup_map s.table.emails hrow hold'
            (hemail.trans hemail'.symm)
          exact ⟨rfl, rfl, rfl, rfl⟩
        · refine h d other held pid ?_
          unfold State.moveTo at hcall
          dsimp only at hcall
          rwa [Function.update_of_ne hd] at hcall
      · exact h
  · exact h

/-- A step that changes what it should keeps what calls hold. -/
theorem held_step (h : Held s) (a : Action ι) (hframed : Framed render s a) :
    Held (step render s a) := by
  cases a with
  | assign c provisionerId email =>
    obtain heq | heq := @step_assign ι _ render s c provisionerId email
    · rw [heq]
      exact held_assignUser h c provisionerId email
    · rw [heq]
      exact h
  | advance c =>
    have hrows : ∀ row' ∈ (step render s (.advance c)).table.rows, ∃ row ∈ s.table.rows,
        row'.email = row.email ∧ SameBlob row' row := by
      intro row' hrow'
      obtain ⟨row, hrow, heq⟩ := exists_row hframed row' hrow'
      have hkept := columns_of_forgetRoles heq
      exact ⟨row, hrow, hkept.1, hkept.2.2.1⟩
    refine h.of_rows hrows fun d email user provisionerId hcall => ?_
    simp only [step, advance] at hcall
    split at hcall
    · exact hcall
    · split at hcall
      · exact updating_moveTo (by nofun) d _ _ _ hcall
      · exact updating_moveTo (by nofun) d _ _ _ hcall
    · have hmoved := updating_moveTo (by nofun) d _ _ _ hcall
      unfold associate at hmoved
      split at hmoved <;> exact hmoved
  | remove provisionerId userId =>
    refine h.of_rows ?_ fun d email user pid hcall => ?_
    · have htable : (step render s (.remove provisionerId userId)).table = s.table :=
        removeUser_table provisionerId userId
      rw [htable]
      exact sameBlob_refl s.table
    · simp only [step, removeUser] at hcall
      split_ifs at hcall <;> exact hcall
  | column w =>
    refine h.of_rows (fun row' hrow' => ?_) fun d email user pid hcall => hcall
    obtain ⟨row, hrow, rfl⟩ := List.mem_map.mp hrow'
    exact ⟨row, hrow, (w.apply_keys row).1, (blob_apply w row).1⟩

/-! ## The condition, step by step -/

/-- A step does what is asked of it: it changes what it should, and the columns are reported
after it. -/
def Sound (render : Jsonb → String) (s : State ι) (a : Action ι) : Prop :=
  Framed render s a ∧ Reports (step render s a).table

theorem onlyRoles_refl (table : UsersTable) : OnlyRoles table table := rfl

/-- Steps that leave the rows alone do what is asked. -/
theorem sound_of_table {a : Action ι} (htable : (step render s a).table = s.table)
    (hcolumn : ∀ w, a ≠ .column w) (hbefore : Unshadowed s.table) : Sound render s a := by
  constructor
  · cases a with
    | column w => exact absurd rfl (hcolumn w)
    | _ => exact (congrArg (OnlyRoles s.table) htable).mpr (onlyRoles_refl s.table)
  · rw [htable]
    exact (reports_iff s.table).mpr hbefore

/-- Writing a held user back does what is asked under the condition, and only then. -/
theorem sound_advance_iff (hheld : Held s) (hbefore : Unshadowed s.table) (c : ι) :
    Sound render s (.advance c) ↔ Spared render s (.advance c) := by
  cases hcall : s.calls c with
  | idle =>
    have htable : (step render s (.advance c)).table = s.table := by
      simp only [step, advance, hcall]
    have hspared : Spared render s (.advance c) := by
      simp only [Spared, hcall]
    exact iff_of_true (sound_of_table htable (fun _ heq => nomatch heq) hbefore) hspared
  | associating userId provisionerId =>
    have htable : (step render s (.advance c)).table = s.table := by
      simp only [step, advance, hcall, associate, State.moveTo]
      split <;> rfl
    have hspared : Spared render s (.advance c) := by
      simp only [Spared, hcall]
    exact iff_of_true (sound_of_table htable (fun _ heq => nomatch heq) hbefore) hspared
  | updating email user provisionerId =>
    obtain ⟨old, roles, huser, hsame⟩ := hheld c email user provisionerId hcall
    have hspared : Spared render s (.advance c) ↔
        (paramText render (user.get "password") ≠ none →
          ∀ row ∈ s.table.rows, row.email = email → Spares user row) := by
      simp only [Spared, hcall]
    rw [hspared]
    cases hpassword : paramText render (user.get "password") with
    | none =>
      have htable : (step render s (.advance c)).table = s.table := by
        simp only [step, advance, hcall, update, hpassword]
        split_ifs <;> rfl
      exact iff_of_true (sound_of_table htable (fun _ heq => nomatch heq) hbefore)
        fun h => absurd rfl h
    | some password =>
      have hrows : OnlyRoles s.table (step render s (.advance c)).table ↔
          ∀ row ∈ s.table.rows, row.email = email → Spares user row := by
        simp only [step, advance, hcall, update, hpassword, State.moveTo]
        rw [onlyRoles_modify]
        refine forall₂_congr fun row hrow => ?_
        split_ifs with hemail
        · exact (forgetRoles_iff (hsame row hrow hemail) huser hpassword).trans
            ⟨fun h _ => h, fun h => h hemail⟩
        · exact ⟨fun _ h => absurd h hemail, fun _ => rfl⟩
      constructor
      · exact fun h _ => hrows.mp h.1
      · intro h
        have honly := hrows.mpr (h (by simp))
        exact ⟨honly, (reports_iff _).mpr (unshadowed_of_onlyRoles honly hbefore)⟩

/-- So does every step. -/
theorem sound_iff (hheld : Held s) (hbefore : Unshadowed s.table) (a : Action ι) :
    Sound render s a ↔ Spared render s a := by
  cases a with
  | assign c provisionerId email =>
    have htable : (step render s (.assign c provisionerId email)).table = s.table := by
      obtain heq | heq := @step_assign ι _ render s c provisionerId email
      · rw [heq]
        exact assignUser_table c provisionerId email
      · rw [heq]
    exact iff_of_true (sound_of_table htable (fun _ heq => nomatch heq) hbefore) trivial
  | advance c => exact sound_advance_iff hheld hbefore c
  | remove provisionerId userId =>
    exact iff_of_true (sound_of_table (removeUser_table provisionerId userId)
      (fun _ heq => nomatch heq) hbefore) trivial
  | column w =>
    rw [← unshadowed_column_iff w hbefore, ← reports_iff]
    exact ⟨fun h => h.2, fun h => ⟨trivial, h⟩⟩

/-! ## Runs -/

/-- What is asked of a run: its steps of assigning and removing change roles only, and at
every point the columns are reported, and no new contact email reads as verified. -/
def KeepsColumns (render : Jsonb → String) (s : State ι) (actions : List (Action ι)) : Prop :=
  RunMeets (step render) (Framed render) s actions ∧
    ∀ past, past <+: actions → Reports (run (step render) s past).table ∧
      Unverified past (run (step render) s past).table

/-- The column of a user whose new contact email is not verified holds no time. -/
def Cleared (actions : List (Action ι)) (table : UsersTable) : Prop :=
  ∀ row ∈ table.rows, awaiting actions row.userId = true → row.emailVerifiedAt = none

omit [DecidableEq ι] in
/-- What is awaited after one more step. -/
theorem awaiting_concat (actions : List (Action ι)) (a : Action ι) (userId : String) :
    awaiting (actions ++ [a]) userId =
      match a with
      | .column (.setContactEmail changed _) => awaiting actions userId || changed = userId
      | .column (.markEmailVerified verified _) => awaiting actions userId && verified ≠ userId
      | _ => awaiting actions userId := by
  unfold awaiting
  rw [List.foldl_append]
  rfl

/-- Writing a user back changes no time of verification. -/
theorem verified_advance (c : ι) : ∀ row' ∈ (advance render s c).table.rows,
    ∃ row ∈ s.table.rows, row'.userId = row.userId ∧
      row'.emailVerifiedAt = row.emailVerifiedAt := by
  have hsame : ∀ row' ∈ s.table.rows, ∃ row ∈ s.table.rows, row'.userId = row.userId ∧
      row'.emailVerifiedAt = row.emailVerifiedAt := fun row hrow => ⟨row, hrow, rfl, rfl⟩
  intro row' hrow'
  unfold advance at hrow'
  split at hrow'
  · exact hsame row' hrow'
  · split at hrow'
    next table hupdate =>
      unfold update at hupdate
      split at hupdate
      · obtain rfl := Option.some.inj hupdate
        obtain ⟨row, hrow, rfl⟩ := List.mem_map.mp hrow'
        refine ⟨row, hrow, ?_⟩
        split_ifs <;> exact ⟨rfl, rfl⟩
      · split_ifs at hupdate
        obtain rfl := Option.some.inj hupdate
        exact hsame row' hrow'
    · exact hsame row' hrow'
  · unfold associate at hrow'
    split at hrow' <;> exact hsame row' hrow'

/-- Only a verification sets a time. -/
theorem cleared_step {past : List (Action ι)} (h : Cleared past s.table) (a : Action ι) :
    Cleared (past ++ [a]) (step render s a).table := by
  intro row' hrow' hawaiting
  rw [awaiting_concat] at hawaiting
  cases a with
  | assign c provisionerId email =>
    have htable : (step render s (.assign c provisionerId email)).table = s.table := by
      obtain heq | heq := @step_assign ι _ render s c provisionerId email
      · rw [heq]
        exact assignUser_table c provisionerId email
      · rw [heq]
    exact h row' (htable ▸ hrow') hawaiting
  | advance c =>
    obtain ⟨row, hrow, hid, hverified⟩ := verified_advance c row' hrow'
    exact hverified.trans (h row hrow (hid ▸ hawaiting))
  | remove provisionerId userId =>
    have htable : (step render s (.remove provisionerId userId)).table = s.table :=
      removeUser_table provisionerId userId
    exact h row' (htable ▸ hrow') hawaiting
  | column w =>
    obtain ⟨row, hrow, rfl⟩ := List.mem_map.mp hrow'
    rw [(w.apply_keys row).2] at hawaiting
    unfold ColumnWrite.apply
    cases w with
    | setContactEmail userId contactEmail =>
      by_cases hselects : row.userId = userId
      · simp [ColumnWrite.selects, ColumnWrite.write, hselects]
      · simp only [Bool.or_eq_true, decide_eq_true_eq] at hawaiting
        have hbefore := h row hrow (hawaiting.resolve_right fun heq => hselects heq.symm)
        simpa [ColumnWrite.selects, ColumnWrite.write, hselects] using hbefore
    | markEmailVerified userId now =>
      simp only [Bool.and_eq_true, decide_eq_true_eq] at hawaiting
      have hbefore := h row hrow hawaiting.1
      have hselects : row.userId ≠ userId := fun heq => hawaiting.2 heq.symm
      simpa [ColumnWrite.selects, ColumnWrite.write, hselects] using hbefore
    | completeFirstLogin email hashedPassword =>
      have hbefore := h row hrow hawaiting
      dsimp only [ColumnWrite.write]
      split_ifs <;> exact hbefore
    | setPasswordByUserId userId hashedPassword =>
      have hbefore := h row hrow hawaiting
      dsimp only [ColumnWrite.write]
      split_ifs <;> exact hbefore
    | updateLastSelectedProviderId email providerId =>
      have hbefore := h row hrow hawaiting
      dsimp only [ColumnWrite.write]
      split_ifs <;> exact hbefore

/-- In every run the columns tell who is verified. -/
theorem cleared_run (past : List (Action ι)) : Cleared past (run (step render) s past).table := by
  induction past using List.reverseRecOn with
  | nil => exact fun row hrow hawaiting => nomatch hawaiting
  | append_singleton past a ih =>
    rw [run_concat]
    exact cleared_step ih a

/-- Where the columns are reported, nobody reads as verified who is not. -/
theorem unverified_of_reports (past : List (Action ι))
    (h : Reports (run (step render) s past).table) :
    Unverified past (run (step render) s past).table := by
  intro row hrow hawaiting
  obtain ⟨user, huser, hreads⟩ := h row hrow
  refine ⟨user, huser, ?_⟩
  rw [hreads "emailVerifiedAt" (by decide)]
  have hcleared := cleared_run past row hrow hawaiting
  simp [column, columnFields, List.lookup_cons, hcleared, nullable]

/-- A run from a database no call has touched keeps the columns apart from their copies when
no copy differs at the start and every step meets the condition, and only then. -/
theorem keepsColumns_iff (table : UsersTable) (provisioners : List String)
    (associations : List (String × String)) (providersOf : String → List String)
    (actions : List (Action ι)) :
    KeepsColumns render (opened ι table provisioners associations providersOf) actions ↔
      Unshadowed table ∧
        RunMeets (step render) (Spared render)
          (opened ι table provisioners associations providersOf) actions := by
  have hheld : Held (opened ι table provisioners associations providersOf) :=
    fun _ _ _ _ hcall => nomatch hcall
  have hadvance : ∀ (s : State ι) (a : Action ι), Sound render s a → Held s ∧ Unshadowed s.table →
      Held (step render s a) ∧ Unshadowed (step render s a).table :=
    fun s a hsound hinv => ⟨held_step hinv.1 a hsound.1, (reports_iff _).mp hsound.2⟩
  have hkeeps : ∀ (s : State ι) (a : Action ι), Spared render s a →
      Held s ∧ Unshadowed s.table →
        Held (step render s a) ∧ Unshadowed (step render s a).table :=
    fun s a hspared hinv => hadvance s a ((sound_iff hinv.1 hinv.2 a).mpr hspared) hinv
  constructor
  · rintro ⟨hframed, hreports⟩
    have hstart : Unshadowed table := (reports_iff table).mp (hreports [] List.nil_prefix).1
    have hsound : RunMeets (step render) (Sound render)
        (opened ι table provisioners associations providersOf) actions := by
      refine runMeets_iff.mpr fun past a hpast => ⟨runMeets_iff.mp hframed past a hpast, ?_⟩
      have hafter := (hreports (past ++ [a]) hpast).1
      rwa [run_concat] at hafter
    exact ⟨hstart, run_meets hadvance (fun s a h hinv => (sound_iff hinv.1 hinv.2 a).mp h)
      hsound ⟨hheld, hstart⟩⟩
  · rintro ⟨hstart, hspared⟩
    refine ⟨run_meets hkeeps (fun s a h hinv => ((sound_iff hinv.1 hinv.2 a).mpr h).1) hspared
      ⟨hheld, hstart⟩, fun past hpast => ?_⟩
    have hreached := run_keeps hkeeps (runMeets_initial hspared hpast) ⟨hheld, hstart⟩
    have hreports := (reports_iff _).mpr hreached.2
    exact ⟨hreports, unverified_of_reports past hreports⟩

/-- A user with a verified contact email and nothing in the blob. -/
def verifiedUser : UserRow :=
  ⟨"u1", "club-1", "hash", none, false, some "old@club", some "2026-01-01", some (.arr []),
    some (.arr []), some (.obj []), none, none, none,
    fun _ h => by cases h; exact List.Pairwise.nil⟩

/-- The only row. -/
def verifiedTable : UsersTable :=
  ⟨[verifiedUser], List.nodup_singleton _, List.nodup_singleton _⟩

/-- The user becomes a representative, then takes another contact email. -/
def reverifiedRun : List (Action ℕ) :=
  [.assign 0 "p1" "club-1", .advance 0, .advance 0, .column (.setContactEmail "u1" "new@club")]

/-- The new contact email reads as verified at the time of the old one. -/
theorem assigned_user_reads_verified :
    ¬ KeepsColumns (fun _ => "") (opened ℕ verifiedTable ["p1"] [] fun _ => []) reverifiedRun := by
  rintro ⟨-, h⟩
  have hunverified := (h reverifiedRun (List.prefix_refl _)).2
  have hrows : (run (step fun _ => "") (opened ℕ verifiedTable ["p1"] [] fun _ => [])
      reverifiedRun).table.rows ≠ [] := by decide +kernel
  have hreads : ∀ row ∈ (run (step fun _ => "") (opened ℕ verifiedTable ["p1"] [] fun _ => [])
      reverifiedRun).table.rows, awaiting reverifiedRun row.userId = true ∧
        (findOne (run (step fun _ => "") (opened ℕ verifiedTable ["p1"] [] fun _ => [])
          reverifiedRun).table row.email).bind (·.get "emailVerifiedAt") =
            some (.str "2026-01-01") := by
    decide +kernel
  obtain ⟨row, hrow⟩ := List.exists_mem_of_ne_nil _ hrows
  obtain ⟨hawaiting, hread⟩ := hreads row hrow
  obtain ⟨user, huser, hnull⟩ := hunverified row hrow hawaiting
  rw [huser] at hread
  cases hnull.symm.trans hread

end FactoryServer.UserFrames
