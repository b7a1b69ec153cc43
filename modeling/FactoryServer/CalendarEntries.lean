import FactoryServer.CalendarRows

/-!
# Calendar entries and their rows

A calendar entry is an object whose fields may be absent, null or of any type; its row has
a text id and a search text. The row of an entry that is read back from a row is that row,
and an entry without nulls is read back from its row, apart from its provider and its
publication flag.
-/

namespace FactoryServer.CalendarEntries

open JsonValue
open CalendarRows (Fields CalendarEntry CalendarTournamentRow orNull isCalendarDay datePart
  dateOnly dateColumnToCalendarDay lowerName assignDefined updatedEntry IDENTITY_FIELDS
  MAPPED_TOURNAMENT_FIELDS COLUMN_FIELDS)

/-- The fields of an entry object. -/
structure StoredEntry where
  /-- `tournamentId`. -/
  tournamentId : Option Json
  /-- `providerId`. -/
  providerId : Option Json
  /-- `searchText`. -/
  searchText : Option Json
  /-- `tournament`; no object is one without fields. -/
  tournament : Fields
  /-- `createdByUserId`. -/
  createdByUserId : Option Json
  /-- `published`. -/
  published : Option Json

section Rows

variable (lower : String → String)

/-- `entry?.tournamentId ?? tournament.tournamentId`, where it is a text. -/
def rowId (entry : StoredEntry) : Option String :=
  match (orNull entry.tournamentId).or (orNull (entry.tournament "tournamentId")) with
  | some (.str tournamentId) => some tournamentId
  | _ => none

/-- `entry?.searchText ?? (tournament.tournamentName ?? '').toLowerCase()`, where it is a
text; of a name that is no text there is no lower case. -/
def rowSearchText (entry : StoredEntry) : Option String :=
  match orNull entry.searchText with
  | some (.str searchText) => some searchText
  | some _ => none
  | none =>
    match orNull (entry.tournament "tournamentName") with
    | some (.str tournamentName) => some (lower tournamentName)
    | some _ => none
    | none => some ""

/-- `entry?.published === true`. -/
def isPublished : Option Json → Bool
  | some (.bool true) => true
  | _ => false

/-- What the columns of a row are derived from. -/
def calendarEntry (entry : StoredEntry) (tournamentId searchText : String) : CalendarEntry where
  tournamentId := tournamentId
  searchText := some searchText
  tournament := entry.tournament
  createdByUserId := entry.createdByUserId
  published := isPublished entry.published

/-- `toRow` of an entry object: a row where its id and its search text are texts. -/
def toRow (entry : StoredEntry) (providerId : String) (providerAbbr : Option String) :
    Option CalendarTournamentRow :=
  match rowId entry, rowSearchText lower entry with
  | some tournamentId, some searchText =>
    some (CalendarRows.toRow lower (calendarEntry entry tournamentId searchText) providerId
      providerAbbr)
  | _, _ => none

/-- `fromRow`, with all fields of the entry object. -/
def fromRow (row : CalendarTournamentRow) : StoredEntry where
  tournamentId := some (.str row.tournamentId)
  providerId := some (.str row.providerId)
  searchText := some (.str row.searchText)
  tournament := (CalendarRows.fromRow row).tournament
  createdByUserId := row.createdByUserId
  published := some (.bool row.published)

/-- The entry that `modifyProviderCalendar` derives the row from. -/
def patchedEntry (updates : Fields) (providerId : String) (existing : StoredEntry) :
    StoredEntry :=
  { existing with
    searchText := (((lowerName lower (updates "tournamentName")).filter (· ≠ "")).map .str).or
      existing.searchText
    providerId := some (.str providerId)
    tournament := fun key => (updates key).or (existing.tournament key) }

/-! ## Reading a row back -/

/-- Every field of a tournament has a column of its own, or goes to `identity` or to
`remainder`. -/
theorem field_cases (key : String) :
    key = "tournamentId" ∨ key = "startDate" ∨ key = "endDate" ∨ key ∈ COLUMN_FIELDS ∨
      key ∈ IDENTITY_FIELDS ∨ key ∉ MAPPED_TOURNAMENT_FIELDS := by
  by_cases hmapped : key ∈ MAPPED_TOURNAMENT_FIELDS
  · have hall : ∀ field ∈ MAPPED_TOURNAMENT_FIELDS, field = "tournamentId" ∨
        field = "startDate" ∨ field = "endDate" ∨ field ∈ COLUMN_FIELDS ∨
          field ∈ IDENTITY_FIELDS := by decide
    obtain h | h | h | h | h := hall key hmapped
    · exact .inl h
    · exact .inr (.inl h)
    · exact .inr (.inr (.inl h))
    · exact .inr (.inr (.inr (.inl h)))
    · exact .inr (.inr (.inr (.inr (.inl h))))
  · exact .inr (.inr (.inr (.inr (.inr hmapped))))

/-- A publication flag that is read back. -/
theorem isPublished_bool (flag : Bool) : isPublished (some (.bool flag)) = flag := by
  cases flag <;> rfl

/-- The row of an entry that was read back from a row. -/
theorem toRow_fromRow (row : CalendarTournamentRow) (providerId : String)
    (providerAbbr : Option String) : toRow lower (fromRow row) providerId providerAbbr =
      some (CalendarRows.toRow lower (CalendarRows.fromRow row) providerId providerAbbr) := by
  have hpublished : isPublished (fromRow row).published = row.published :=
    isPublished_bool row.published
  have hfields : calendarEntry (fromRow row) row.tournamentId row.searchText =
      CalendarRows.fromRow row := by
    rw [calendarEntry, hpublished]
    rfl
  rw [← hfields]
  rfl

/-- The row of an entry that was read back from a row and patched. -/
theorem toRow_patched (row : CalendarTournamentRow) (providerId : String) (abbr : Option String)
    (updates : Fields) : toRow lower (patchedEntry lower updates providerId (fromRow row))
      providerId abbr = some (CalendarRows.toRow lower (updatedEntry lower updates
        (CalendarRows.fromRow row)) providerId abbr) := by
  have hpublished := isPublished_bool row.published
  cases hname : (lowerName lower (updates "tournamentName")).filter (· ≠ "") with
  | none =>
    have hfields : calendarEntry (patchedEntry lower updates providerId (fromRow row))
        row.tournamentId row.searchText =
          updatedEntry lower updates (CalendarRows.fromRow row) := by
      rw [updatedEntry, hname, calendarEntry, patchedEntry, fromRow, hpublished]
      rfl
    have htext : rowSearchText lower (patchedEntry lower updates providerId (fromRow row)) =
        some row.searchText := by
      rw [rowSearchText, patchedEntry, hname]
      rfl
    rw [toRow, htext, ← hfields]
    rfl
  | some name =>
    have hfields : calendarEntry (patchedEntry lower updates providerId (fromRow row))
        row.tournamentId name = updatedEntry lower updates (CalendarRows.fromRow row) := by
      rw [updatedEntry, hname, calendarEntry, patchedEntry, fromRow, hpublished]
      rfl
    have htext : rowSearchText lower (patchedEntry lower updates providerId (fromRow row)) =
        some name := by
      rw [rowSearchText, patchedEntry, hname]
      rfl
    rw [toRow, htext, ← hfields]
    rfl

/-- The row of an entry object. -/
theorem toRow_eq_some {entry : StoredEntry} {providerId : String} {abbr : Option String}
    {row : CalendarTournamentRow} (h : toRow lower entry providerId abbr = some row) :
    ∃ tournamentId searchText, rowId entry = some tournamentId ∧
      rowSearchText lower entry = some searchText ∧
        CalendarRows.toRow lower (calendarEntry entry tournamentId searchText) providerId abbr =
          row := by
  rw [toRow] at h
  split at h
  next tournamentId searchText hid hsearch =>
    exact ⟨tournamentId, searchText, hid, hsearch, Option.some.inj h⟩
  next => cases h

/-- The row of an entry that is read back from the row of an entry is that row. -/
theorem row_again {entry : StoredEntry} {providerId : String} {abbr : Option String}
    {row : CalendarTournamentRow} (h : toRow lower entry providerId abbr = some row) :
    toRow lower (fromRow row) providerId abbr = some row := by
  obtain ⟨tournamentId, searchText, -, -, rfl⟩ := toRow_eq_some lower h
  rw [toRow_fromRow]
  have hnone : ∀ (key : String) (value : Json), (none : Option Json) = some value →
      (calendarEntry entry tournamentId searchText).tournament key = some value :=
    fun _ _ hvalue => by cases hvalue
  have hsame : CalendarRows.toRow lower (updatedEntry lower (fun _ => none) (CalendarRows.fromRow
      (CalendarRows.toRow lower (calendarEntry entry tournamentId searchText) providerId abbr)))
        providerId abbr = _ := CalendarRows.updated_agrees lower hnone fun _ hname _ => by cases hname
  exact congrArg some hsame

/-! ## Patching a row -/

/-- A column that none of the updates is for stays as it is. -/
structure PatchKeeps (updates : Fields) (row patched : CalendarTournamentRow) : Prop where
  /-- `tournament_id`. -/
  tournamentId : patched.tournamentId = row.tournamentId
  /-- `provider_id`. -/
  providerId : patched.providerId = row.providerId
  /-- `provider_abbr`. -/
  providerAbbr : patched.providerAbbr = row.providerAbbr
  /-- `published`. -/
  published : patched.published = row.published
  /-- `created_by_user_id`. -/
  createdByUserId : patched.createdByUserId = row.createdByUserId
  /-- The columns of one field each. -/
  columns : ∀ key, updates key = none → assignDefined patched key = assignDefined row key
  /-- The fields in `identity`. -/
  identity : ∀ key, updates key = none → patched.identity key = row.identity key
  /-- The fields in `remainder`. -/
  remainder : ∀ key, updates key = none → patched.remainder key = row.remainder key
  /-- `search_text`, which follows the name. -/
  searchText : updates "tournamentName" = none → patched.searchText = row.searchText
  /-- `event_count`, which follows the events. -/
  eventCount : updates "eventInfo" = none → patched.eventCount = row.eventCount
  /-- `offline`, which follows the time items. -/
  offline : updates "timeItemValues" = none → patched.offline = row.offline

/-- A field with a column of its own. -/
theorem assignDefined_column (entry : CalendarEntry) (providerId : String) (abbr : Option String)
    {key : String} (hkey : key ∈ COLUMN_FIELDS) :
    assignDefined (CalendarRows.toRow lower entry providerId abbr) key =
      orNull (entry.tournament key) := by
  simp only [COLUMN_FIELDS, List.mem_cons, List.not_mem_nil, or_false] at hkey
  rcases hkey with rfl | rfl | rfl | rfl | rfl | rfl | rfl | rfl | rfl | rfl | rfl | rfl <;> rfl

/-- An identity field has no column of its own. -/
theorem assignDefined_identity (row : CalendarTournamentRow) {key : String}
    (hkey : key ∈ IDENTITY_FIELDS) : assignDefined row key = none := by
  simp only [IDENTITY_FIELDS, List.mem_cons, List.not_mem_nil, or_false] at hkey
  rcases hkey with rfl | rfl | rfl | rfl | rfl | rfl | rfl | rfl | rfl | rfl <;> rfl

section Patch

variable (entry : CalendarEntry) (providerId : String) (abbr : Option String) (updates : Fields)
  {key : String}

/-- The row of the entry, and the row after a patch of what is read back from it. -/
abbrev rowOf : CalendarTournamentRow := CalendarRows.toRow lower entry providerId abbr

/-- The row of the patched entry. -/
abbrev patchedRow : CalendarTournamentRow :=
  CalendarRows.toRow lower (updatedEntry lower updates (CalendarRows.fromRow
    (rowOf lower entry providerId abbr))) providerId abbr

/-- A field that is not updated is read back from the row. -/
theorem updated_field (hupdate : updates key = none) :
    (updatedEntry lower updates (CalendarRows.fromRow (rowOf lower entry providerId
      abbr))).tournament key =
        (CalendarRows.fromRow (rowOf lower entry providerId abbr)).tournament key := by
  exact (congrArg (fun value => Option.or value _) hupdate).trans Option.none_or

/-- The columns that the updates are not for. -/
theorem patch_keeps : PatchKeeps updates (rowOf lower entry providerId abbr)
    (patchedRow lower entry providerId abbr updates) where
  tournamentId := rfl
  providerId := rfl
  providerAbbr := rfl
  published := rfl
  createdByUserId := CalendarRows.orNull_idem _
  columns := by
    intro key hupdate
    have hfield := updated_field lower entry providerId abbr updates hupdate
    have hdate : ∀ day, day = "startDate" ∨ day = "endDate" → updates day = none →
        dateOnly ((updatedEntry lower updates (CalendarRows.fromRow (rowOf lower entry providerId
          abbr))).tournament day) = dateOnly (entry.tournament day) := by
      intro day hday hnone
      rw [updated_field lower entry providerId abbr updates hnone]
      exact CalendarRows.back_date lower entry providerId abbr hday
    obtain rfl | rfl | rfl | hcolumn | hidentity | hother := field_cases key
    · rfl
    · exact congrArg (fun day => (dateColumnToCalendarDay day).map Json.str)
        (hdate "startDate" (.inl rfl) hupdate)
    · exact congrArg (fun day => (dateColumnToCalendarDay day).map Json.str)
        (hdate "endDate" (.inr rfl) hupdate)
    · rw [assignDefined_column lower _ providerId abbr hcolumn,
        assignDefined_column lower _ providerId abbr hcolumn, hfield,
        CalendarRows.back_column lower entry providerId abbr hcolumn, CalendarRows.orNull_idem]
    · rw [assignDefined_identity _ hidentity, assignDefined_identity _ hidentity]
    · rw [CalendarRows.assignDefined_other _ hother, CalendarRows.assignDefined_other _ hother]
  identity := by
    intro key hupdate
    have hfield := updated_field lower entry providerId abbr updates hupdate
    by_cases hidentity : key ∈ IDENTITY_FIELDS
    · rw [CalendarRows.back_identity lower entry providerId abbr hidentity] at hfield
      exact (if_pos hidentity).trans (hfield.trans (if_pos hidentity).symm)
    · exact (if_neg hidentity).trans (if_neg hidentity).symm
  remainder := by
    intro key hupdate
    have hfield := updated_field lower entry providerId abbr updates hupdate
    by_cases hmapped : key ∈ MAPPED_TOURNAMENT_FIELDS
    · exact (if_pos hmapped).trans (if_pos hmapped).symm
    · rw [CalendarRows.back_remainder lower entry providerId abbr hmapped] at hfield
      exact (if_neg hmapped).trans (hfield.trans (if_neg hmapped).symm)
  searchText := by
    intro hname
    simp only [patchedRow, CalendarRows.toRow, updatedEntry, hname]
    rfl
  eventCount := by
    intro hevents
    have hfield := updated_field lower entry providerId abbr updates hevents
    rw [CalendarRows.back_column lower entry providerId abbr (by decide)] at hfield
    have hcount := CalendarRows.countItems_orNull (entry.tournament "eventInfo")
    rw [← hfield] at hcount
    exact hcount
  offline := by
    intro htimes
    have hfield := updated_field lower entry providerId abbr updates htimes
    rw [CalendarRows.back_column lower entry providerId abbr (by decide)] at hfield
    have hoffline := CalendarRows.offlineOf_orNull (entry.tournament "timeItemValues")
    rw [← hfield] at hoffline
    exact hoffline

end Patch

/-! ## Reading an entry back -/

/-- A date is absent or a calendar day without a time. -/
def DateOnly (value : Option Json) : Prop :=
  value = none ∨ ∃ day : String, value = some (.str day) ∧ isCalendarDay day.toList = true

/-- An entry whose tournament fields are not null, whose dates are date-only and whose id is
the same inside and outside. -/
structure Plain (entry : StoredEntry) : Prop where
  /-- The id inside and outside. -/
  sameId : ∃ tournamentId, entry.tournamentId = some (.str tournamentId) ∧
    entry.tournament "tournamentId" = some (.str tournamentId)
  /-- No tournament field is null. -/
  noNulls : ∀ key, entry.tournament key ≠ some .null
  /-- `startDate`. -/
  startDate : DateOnly (entry.tournament "startDate")
  /-- `endDate`. -/
  endDate : DateOnly (entry.tournament "endDate")

/-- The entry with its provider set and `published` made a boolean. -/
def settled (entry : StoredEntry) (providerId : String) : StoredEntry :=
  { entry with
    providerId := some (.str providerId)
    published := some (.bool (isPublished entry.published)) }

/-- A calendar day has no time. -/
theorem datePart_calendarDay {day : String} (h : isCalendarDay day.toList = true) :
    datePart day = day.toList := by
  rw [datePart, List.takeWhile_eq_self_iff]
  intro letter hletter
  refine decide_eq_true fun heq => ?_
  rw [heq] at hletter
  revert hletter h
  generalize day.toList = letters
  intro hday hmem
  unfold isCalendarDay at hday
  split at hday
  · simp only [List.all_cons, List.all_nil, Bool.and_true, Bool.and_eq_true] at hday
    simp only [List.mem_cons, List.not_mem_nil, or_false] at hmem
    rcases hmem with h | h | h | h | h | h | h | h | h | h <;>
      first
      | exact absurd h (by decide)
      | simp [← h] at hday
  · cases hday

/-- A date-only field is read back from its column. -/
theorem date_back {value : Option Json} (h : DateOnly value) :
    (dateColumnToCalendarDay (dateOnly value)).map Json.str = value := by
  obtain rfl | ⟨day, rfl, hday⟩ := h
  · rfl
  · have hpart := datePart_calendarDay hday
    have hcolumn : dateOnly (some (.str day)) = some day := by
      rw [dateOnly, hpart, if_pos hday, String.ofList_toList]
    have hne : day ≠ "" := by
      rintro rfl
      cases hday
    have hfilter : (some day).filter (· ≠ "") = some day :=
      Option.filter_eq_some_iff.mpr ⟨rfl, decide_eq_true hne⟩
    rw [hcolumn, dateColumnToCalendarDay, hfilter]
    simp only [Option.map_some, hpart, String.ofList_toList]

/-- A value that is not null is kept. -/
theorem orNull_of_ne {value : Option Json} (h : value ≠ some .null) : orNull value = value := by
  cases value with
  | none => rfl
  | some value =>
    cases value with
    | null => exact absurd rfl h
    | _ => rfl

/-- Every tournament field of a plain entry is read back. -/
theorem tournament_back (entry : CalendarEntry) {tournamentId : String} (providerId : String)
    (abbr : Option String) (hid : entry.tournament "tournamentId" = some (.str tournamentId))
    (hsame : entry.tournamentId = tournamentId)
    (hnulls : ∀ key, entry.tournament key ≠ some .null)
    (hstart : DateOnly (entry.tournament "startDate"))
    (hend : DateOnly (entry.tournament "endDate")) :
    (CalendarRows.fromRow (CalendarRows.toRow lower entry providerId abbr)).tournament =
      entry.tournament := by
  have hnone : ∀ value : Option Json, (value.or none).or none = value := fun value => by
    rw [Option.or_none, Option.or_none]
  funext key
  obtain rfl | rfl | rfl | hcolumn | hidentity | hother := field_cases key
  · rw [hid, ← hsame]
    rfl
  · exact (hnone _).trans (date_back hstart)
  · exact (hnone _).trans (date_back hend)
  · rw [CalendarRows.back_column lower entry providerId abbr hcolumn, orNull_of_ne (hnulls key)]
  · exact CalendarRows.back_identity lower entry providerId abbr hidentity
  · exact CalendarRows.back_remainder lower entry providerId abbr hother

/-- A plain entry with a search text and no null creator is read back from its row. -/
theorem entry_back {entry : StoredEntry} (h : Plain entry) {searchText : String}
    (hsearch : entry.searchText = some (.str searchText))
    (hcreator : entry.createdByUserId ≠ some .null) (providerId : String)
    (abbr : Option String) :
    (toRow lower entry providerId abbr).map fromRow = some (settled entry providerId) := by
  obtain ⟨tournamentId, houtside, hinside⟩ := h.sameId
  have hid : rowId entry = some tournamentId := by rw [rowId, houtside]; rfl
  have htext : rowSearchText lower entry = some searchText := by rw [rowSearchText, hsearch]; rfl
  have htournament := tournament_back lower (calendarEntry entry tournamentId searchText)
    providerId abbr hinside rfl h.noNulls h.startDate h.endDate
  have hback : fromRow (CalendarRows.toRow lower (calendarEntry entry tournamentId searchText)
      providerId abbr) = settled entry providerId := by
    rw [fromRow, htournament, settled, houtside, hsearch, ← orNull_of_ne hcreator]
    rfl
  rw [toRow, hid, htext]
  exact congrArg some hback

/-- A plain entry with a search text and no null creator is read back from its row; the row of
an entry that was read back from a row is that row; and a patch leaves the columns that it is
not for. -/
theorem rows_inverse (entry : StoredEntry) (providerId : String) (abbr : Option String) :
    (Plain entry → (∃ searchText, entry.searchText = some (.str searchText)) →
      entry.createdByUserId ≠ some .null →
        (toRow lower entry providerId abbr).map fromRow = some (settled entry providerId)) ∧
    ∀ row, toRow lower entry providerId abbr = some row →
      toRow lower (fromRow row) providerId abbr = some row ∧
        ∀ updates, ∃ patched, PatchKeeps updates row patched ∧
          toRow lower (patchedEntry lower updates providerId (fromRow row)) providerId abbr =
            some patched := by
  constructor
  · rintro hplain ⟨searchText, hsearch⟩ hcreator
    exact entry_back lower hplain hsearch hcreator providerId abbr
  · intro row hrow
    refine ⟨row_again lower hrow, fun updates => ?_⟩
    obtain ⟨tournamentId, searchText, -, -, rfl⟩ := toRow_eq_some lower hrow
    exact ⟨_, patch_keeps lower (calendarEntry entry tournamentId searchText) providerId abbr
      updates, toRow_patched lower _ providerId abbr updates⟩

end Rows

/-- An entry that omits its search text. -/
def withoutSearchText : StoredEntry where
  tournamentId := some (.str "t")
  providerId := none
  searchText := none
  tournament := fun key => if key = "tournamentId" then some (.str "t") else none
  createdByUserId := none
  published := some (.bool true)

/-- It is plain. -/
theorem withoutSearchText_plain : Plain withoutSearchText where
  sameId := ⟨"t", rfl, rfl⟩
  noNulls := by
    intro key hnull
    by_cases hkey : key = "tournamentId"
    · cases (if_pos hkey).symm.trans hnull
    · cases (if_neg hkey).symm.trans hnull
  startDate := .inl rfl
  endDate := .inl rfl

/-- With a search text it is read back from its row. -/
theorem withSearchText_back :
    (toRow id { withoutSearchText with searchText := some (.str "open") } "p" none).map fromRow =
      some (settled { withoutSearchText with searchText := some (.str "open") } "p") := by
  have hplain : Plain { withoutSearchText with searchText := some (.str "open") } :=
    ⟨withoutSearchText_plain.sameId, withoutSearchText_plain.noNulls,
      withoutSearchText_plain.startDate, withoutSearchText_plain.endDate⟩
  exact (rows_inverse id _ "p" none).1 hplain ⟨"open", rfl⟩ nofun

/-- An entry without a search text comes back with one. -/
theorem searchText_added :
    ¬ ∀ (lower : String → String) (entry : StoredEntry) (providerId : String)
      (abbr : Option String),
      (Plain entry →
        (toRow lower entry providerId abbr).map fromRow = some (settled entry providerId)) ∧
      ∀ row, toRow lower entry providerId abbr = some row →
        toRow lower (fromRow row) providerId abbr = some row ∧
          ∀ updates, ∃ patched, PatchKeeps updates row patched ∧
            toRow lower (patchedEntry lower updates providerId (fromRow row)) providerId abbr =
              some patched := by
  intro h
  have hback := (h id withoutSearchText "p" none).1 withoutSearchText_plain
  have hentry := congrArg (Option.map StoredEntry.searchText) hback
  have hsearch : some (some (Json.str "")) = some none := hentry
  cases hsearch

end FactoryServer.CalendarEntries
