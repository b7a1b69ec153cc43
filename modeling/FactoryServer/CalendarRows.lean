import FactoryServer.TournamentStorage
import Mathlib.Data.List.TakeWhile

/-!
# Calendar rows

A calendar entry is stored as one row of `calendar_tournaments`. A save derives the row
from the record; a partial update reads the row back as an entry, lays the updates over
it and derives the row again.
-/

namespace FactoryServer.CalendarRows

open JsonValue

/-! ## Entries and rows -/

/-- The fields of an object, absent ones included. -/
abbrev Fields : Type := String → Option Json

/-- A calendar entry. -/
structure CalendarEntry where
  /-- `tournamentId`. -/
  tournamentId : String
  /-- `searchText`. -/
  searchText : Option String
  /-- `tournament`. -/
  tournament : Fields
  /-- `createdByUserId`. -/
  createdByUserId : Option Json
  /-- `published === true`. -/
  published : Bool

/-- `CalendarTournamentRow`. -/
structure CalendarTournamentRow where
  /-- `tournament_id`, the primary key. -/
  tournamentId : String
  /-- `provider_id`. -/
  providerId : String
  /-- `provider_abbr`. -/
  providerAbbr : Option String
  /-- `tournament_name`. -/
  tournamentName : Option Json
  /-- `search_text`. -/
  searchText : String
  /-- `start_date`. -/
  startDate : Option String
  /-- `end_date`. -/
  endDate : Option String
  /-- `tournament_status`. -/
  tournamentStatus : Option Json
  /-- `published`. -/
  published : Bool
  /-- `event_count`. -/
  eventCount : Option ℕ
  /-- `offline`. -/
  offline : Option Json
  /-- `created_by_user_id`. -/
  createdByUserId : Option Json
  /-- `tournament_image_url`. -/
  tournamentImageURL : Option Json
  /-- `identity`. -/
  identity : Fields
  /-- `online_resources`. -/
  onlineResources : Option Json
  /-- `event_info`. -/
  eventInfo : Option Json
  /-- `venues`. -/
  venues : Option Json
  /-- `registration_profile`. -/
  registrationProfile : Option Json
  /-- `tournament_contacts`. -/
  tournamentContacts : Option Json
  /-- `tournament_address`. -/
  tournamentAddress : Option Json
  /-- `publish_state`. -/
  publishState : Option Json
  /-- `time_items`. -/
  timeItems : Option Json
  /-- `notes`. -/
  notes : Option Json
  /-- `remainder`. -/
  remainder : Fields

/-- `IDENTITY_FIELDS`. -/
def IDENTITY_FIELDS : List String :=
  ["formalName", "promotionalName", "tournamentLevel", "tournamentRank", "tournamentTier",
    "hostCountryCode", "localTimeZone", "activeDates", "updatedAt", "parentOrganisation"]

/-- `MAPPED_TOURNAMENT_FIELDS`. -/
def MAPPED_TOURNAMENT_FIELDS : List String :=
  ["tournamentId", "tournamentName", "startDate", "endDate", "tournamentStatus",
    "tournamentImageURL", "eventInfo", "onlineResources", "venues", "registrationProfile",
    "tournamentContacts", "tournamentAddress", "publishState", "timeItemValues", "notes"] ++
    IDENTITY_FIELDS

/-- `value ?? null` and `jsonbOrNull(value)`: a null is sent as SQL `NULL`. -/
def orNull : Option Json → Option Json
  | some .null => none
  | value => value

/-- `/^\d{4}-\d{2}-\d{2}$/`. -/
def isCalendarDay : List Char → Bool
  | [a, b, c, d, '-', e, f, '-', g, h] => [a, b, c, d, e, f, g, h].all Char.isDigit
  | _ => false

/-- `value.split('T')[0]`. -/
def datePart (value : String) : List Char := value.toList.takeWhile (· ≠ 'T')

/-- `dateOnly`. -/
def dateOnly : Option Json → Option String
  | some (.str value) =>
    if isCalendarDay (datePart value) then some (String.ofList (datePart value)) else none
  | _ => none

/-- `dateColumnToCalendarDay` of a column that is cast to text. -/
def dateColumnToCalendarDay (value : Option String) : Option String :=
  (value.filter (· ≠ "")).map fun day => String.ofList (datePart day)

/-- `Array.isArray(value) ? value.length : null`. -/
def countItems : Option Json → Option ℕ
  | some (.arr items) => some items.length
  | _ => none

/-- `timeItemValues?.TMX?.offline ?? null`. -/
def offlineOf (timeItemValues : Option Json) : Option Json :=
  orNull ((timeItemValues.bind (Json.field? "TMX")).bind (Json.field? "offline"))

section Rows

variable (lower : String → String)

/-- `tournamentName?.toLowerCase()`, where names are texts. -/
def lowerName : Option Json → Option String
  | some (.str name) => some (lower name)
  | _ => none

/-- `toRow`. -/
def toRow (entry : CalendarEntry) (providerId : String) (providerAbbr : Option String) :
    CalendarTournamentRow where
  tournamentId := entry.tournamentId
  providerId := providerId
  providerAbbr := providerAbbr
  tournamentName := orNull (entry.tournament "tournamentName")
  searchText := entry.searchText.getD ((lowerName lower (entry.tournament "tournamentName")).getD "")
  startDate := dateOnly (entry.tournament "startDate")
  endDate := dateOnly (entry.tournament "endDate")
  tournamentStatus := orNull (entry.tournament "tournamentStatus")
  published := entry.published
  eventCount := countItems (entry.tournament "eventInfo")
  offline := offlineOf (entry.tournament "timeItemValues")
  createdByUserId := orNull entry.createdByUserId
  tournamentImageURL := orNull (entry.tournament "tournamentImageURL")
  identity := fun key => if key ∈ IDENTITY_FIELDS then entry.tournament key else none
  onlineResources := orNull (entry.tournament "onlineResources")
  eventInfo := orNull (entry.tournament "eventInfo")
  venues := orNull (entry.tournament "venues")
  registrationProfile := orNull (entry.tournament "registrationProfile")
  tournamentContacts := orNull (entry.tournament "tournamentContacts")
  tournamentAddress := orNull (entry.tournament "tournamentAddress")
  publishState := orNull (entry.tournament "publishState")
  timeItems := orNull (entry.tournament "timeItemValues")
  notes := orNull (entry.tournament "notes")
  remainder := fun key => if key ∈ MAPPED_TOURNAMENT_FIELDS then none else entry.tournament key

/-- What `fromRow` assigns from the columns, where they are not null. -/
def assignDefined (row : CalendarTournamentRow) : Fields
  | "tournamentId" => some (.str row.tournamentId)
  | "tournamentName" => row.tournamentName
  | "startDate" => (dateColumnToCalendarDay row.startDate).map .str
  | "endDate" => (dateColumnToCalendarDay row.endDate).map .str
  | "tournamentStatus" => row.tournamentStatus
  | "tournamentImageURL" => row.tournamentImageURL
  | "onlineResources" => row.onlineResources
  | "eventInfo" => row.eventInfo
  | "venues" => row.venues
  | "registrationProfile" => row.registrationProfile
  | "tournamentContacts" => row.tournamentContacts
  | "tournamentAddress" => row.tournamentAddress
  | "publishState" => row.publishState
  | "timeItemValues" => row.timeItems
  | "notes" => row.notes
  | _ => none

/-- `fromRow`. -/
def fromRow (row : CalendarTournamentRow) : CalendarEntry where
  tournamentId := row.tournamentId
  searchText := some row.searchText
  tournament := fun key => ((assignDefined row key).or (row.identity key)).or (row.remainder key)
  createdByUserId := row.createdByUserId
  published := row.published

/-- The entry that `modifyProviderCalendar` derives the row from. -/
def updatedEntry (updates : Fields) (existing : CalendarEntry) : CalendarEntry :=
  { existing with
    searchText := ((lowerName lower (updates "tournamentName")).filter (· ≠ "")).or
      existing.searchText
    tournament := fun key => (updates key).or (existing.tournament key) }

/-! ## Rows that are read back -/

theorem orNull_idem (value : Option Json) : orNull (orNull value) = orNull value := by
  rcases value with _ | value
  · rfl
  · cases value <;> rfl

theorem countItems_orNull (value : Option Json) : countItems (orNull value) = countItems value := by
  rcases value with _ | value
  · rfl
  · cases value <;> rfl

theorem offlineOf_orNull (value : Option Json) : offlineOf (orNull value) = offlineOf value := by
  rcases value with _ | value
  · rfl
  · cases value <;> rfl

theorem datePart_ofList (value : String) :
    datePart (String.ofList (datePart value)) = datePart value := by
  unfold datePart
  rw [String.toList_ofList]
  exact List.takeWhile_idem

/-- A calendar day that is read back from its column is the same calendar day. -/
theorem dateOnly_column (value : Option Json) :
    dateOnly ((dateColumnToCalendarDay (dateOnly value)).map .str) = dateOnly value := by
  cases hday : dateOnly value with
  | none => rfl
  | some day =>
    have hshape : ∃ text, day = String.ofList (datePart text) ∧
        isCalendarDay (datePart text) = true := by
      unfold dateOnly at hday
      split at hday
      · rename_i text
        split_ifs at hday with h
        exact ⟨text, (Option.some.inj hday).symm, h⟩
      · cases hday
    obtain ⟨text, rfl, hcalendar⟩ := hshape
    have hne : String.ofList (datePart text) ≠ "" := by
      intro hempty
      have hlist := congrArg String.toList hempty
      rw [String.toList_ofList] at hlist
      rw [hlist] at hcalendar
      cases hcalendar
    have hfilter : (some (String.ofList (datePart text))).filter (· ≠ "") =
        some (String.ofList (datePart text)) := Option.filter_eq_some_iff.mpr
          ⟨rfl, decide_eq_true hne⟩
    unfold dateColumnToCalendarDay
    rw [hfilter]
    simp only [Option.map_some, dateOnly, datePart_ofList, hcalendar, if_true]

section Back

variable (entry : CalendarEntry) (providerId : String) (abbr : Option String) {key : String}

/-- The fields that have a column of their own. -/
def COLUMN_FIELDS : List String :=
  ["tournamentName", "tournamentStatus", "tournamentImageURL", "onlineResources", "eventInfo",
    "venues", "registrationProfile", "tournamentContacts", "tournamentAddress", "publishState",
    "timeItemValues", "notes"]

theorem back_column (hkey : key ∈ COLUMN_FIELDS) :
    (fromRow (toRow lower entry providerId abbr)).tournament key =
      orNull (entry.tournament key) := by
  have hnone : ∀ value : Option Json, (value.or none).or none = value := fun value => by
    rw [Option.or_none, Option.or_none]
  simp only [COLUMN_FIELDS, List.mem_cons, List.not_mem_nil, or_false] at hkey
  rcases hkey with rfl | rfl | rfl | rfl | rfl | rfl | rfl | rfl | rfl | rfl | rfl | rfl <;>
    exact hnone _

theorem back_identity (hkey : key ∈ IDENTITY_FIELDS) :
    (fromRow (toRow lower entry providerId abbr)).tournament key = entry.tournament key := by
  simp only [IDENTITY_FIELDS, List.mem_cons, List.not_mem_nil, or_false] at hkey
  rcases hkey with rfl | rfl | rfl | rfl | rfl | rfl | rfl | rfl | rfl | rfl <;>
    exact Option.or_none

theorem assignDefined_other (row : CalendarTournamentRow)
    (hkey : key ∉ MAPPED_TOURNAMENT_FIELDS) : assignDefined row key = none := by
  unfold assignDefined
  split <;> first | rfl | exact absurd (by decide) hkey

theorem back_remainder (hkey : key ∉ MAPPED_TOURNAMENT_FIELDS) :
    (fromRow (toRow lower entry providerId abbr)).tournament key = entry.tournament key := by
  have hidentity : key ∉ IDENTITY_FIELDS := fun h => hkey (List.mem_append_right _ h)
  have hassigned := assignDefined_other (toRow lower entry providerId abbr) hkey
  have hback : (fromRow (toRow lower entry providerId abbr)).tournament key =
      ((assignDefined (toRow lower entry providerId abbr) key).or
        (if key ∈ IDENTITY_FIELDS then entry.tournament key else none)).or
        (if key ∈ MAPPED_TOURNAMENT_FIELDS then none else entry.tournament key) := rfl
  rw [hback, hassigned, if_neg hidentity, if_neg hkey]
  rfl

theorem back_date (hkey : key = "startDate" ∨ key = "endDate") :
    dateOnly ((fromRow (toRow lower entry providerId abbr)).tournament key) =
      dateOnly (entry.tournament key) := by
  have hnone : ∀ value : Option Json, (value.or none).or none = value := fun value => by
    rw [Option.or_none, Option.or_none]
  rcases hkey with rfl | rfl
  · exact (congrArg dateOnly (hnone _)).trans (dateOnly_column _)
  · exact (congrArg dateOnly (hnone _)).trans (dateOnly_column _)

end Back

/-- Updates that the entry has already leave its row as it is. -/
theorem updated_agrees {entry : CalendarEntry} {providerId : String} {abbr : Option String}
    {updates : Fields}
    (hagree : ∀ key value, updates key = some value → entry.tournament key = some value)
    (hsearch : ∀ name, lowerName lower (updates "tournamentName") = some name → name ≠ "" →
      (toRow lower entry providerId abbr).searchText = name) :
    toRow lower (updatedEntry lower updates (fromRow (toRow lower entry providerId abbr)))
      providerId abbr = toRow lower entry providerId abbr := by
  have hmerged : ∀ {α : Type} (f : Option Json → α) (key : String),
      f ((fromRow (toRow lower entry providerId abbr)).tournament key) =
          f (entry.tournament key) →
        f ((updatedEntry lower updates (fromRow (toRow lower entry providerId abbr))).tournament
          key) = f (entry.tournament key) := by
    intro α f key hback
    cases hupdate : updates key with
    | none =>
      have hkept : (updatedEntry lower updates (fromRow (toRow lower entry providerId
          abbr))).tournament key = (fromRow (toRow lower entry providerId abbr)).tournament key :=
        congrArg (fun value => Option.or value _) hupdate
      rw [hkept, hback]
    | some value =>
      have hnew : (updatedEntry lower updates (fromRow (toRow lower entry providerId
          abbr))).tournament key = some value :=
        congrArg (fun value => Option.or value _) hupdate
      rw [hnew, hagree key value hupdate]
  have hcolumn : ∀ key ∈ COLUMN_FIELDS, orNull ((updatedEntry lower updates
      (fromRow (toRow lower entry providerId abbr))).tournament key) =
        orNull (entry.tournament key) := fun key hkey => by
    refine hmerged orNull key ?_
    rw [back_column lower entry providerId abbr hkey, orNull_idem]
  have hsearchText : (updatedEntry lower updates (fromRow (toRow lower entry providerId
      abbr))).searchText = some (toRow lower entry providerId abbr).searchText := by
    change ((lowerName lower (updates "tournamentName")).filter (· ≠ "")).or
      (some (toRow lower entry providerId abbr).searchText) = _
    cases hname : (lowerName lower (updates "tournamentName")).filter (· ≠ "") with
    | none => rfl
    | some name =>
      obtain ⟨hlower, hne⟩ := Option.filter_eq_some_iff.mp hname
      rw [hsearch name hlower (of_decide_eq_true hne)]
      rfl
  have hid : (updatedEntry lower updates (fromRow (toRow lower entry providerId
      abbr))).tournamentId = entry.tournamentId := rfl
  have hcreated : orNull (updatedEntry lower updates (fromRow (toRow lower entry providerId
      abbr))).createdByUserId = orNull entry.createdByUserId := orNull_idem _
  have hpublished : (updatedEntry lower updates (fromRow (toRow lower entry providerId
      abbr))).published = entry.published := rfl
  generalize updatedEntry lower updates (fromRow (toRow lower entry providerId abbr)) = updated
    at hmerged hcolumn hsearchText hid hcreated hpublished ⊢
  have hcount : countItems (updated.tournament "eventInfo") =
      countItems (entry.tournament "eventInfo") := by
    rw [← countItems_orNull, hcolumn "eventInfo" (by decide), countItems_orNull]
  have hoffline : offlineOf (updated.tournament "timeItemValues") =
      offlineOf (entry.tournament "timeItemValues") := by
    rw [← offlineOf_orNull, hcolumn "timeItemValues" (by decide), offlineOf_orNull]
  have hidentity : (fun key => if key ∈ IDENTITY_FIELDS then updated.tournament key else none) =
      fun key => if key ∈ IDENTITY_FIELDS then entry.tournament key else none := by
    funext key
    by_cases hkey : key ∈ IDENTITY_FIELDS
    · rw [if_pos hkey, if_pos hkey]
      exact hmerged id key (back_identity lower entry providerId abbr hkey)
    · rw [if_neg hkey, if_neg hkey]
  have hremainder : (fun key => if key ∈ MAPPED_TOURNAMENT_FIELDS then none else
      updated.tournament key) = fun key => if key ∈ MAPPED_TOURNAMENT_FIELDS then none else
        entry.tournament key := by
    funext key
    by_cases hkey : key ∈ MAPPED_TOURNAMENT_FIELDS
    · rw [if_pos hkey, if_pos hkey]
    · rw [if_neg hkey, if_neg hkey]
      exact hmerged id key (back_remainder lower entry providerId abbr hkey)
  have hdates : ∀ key, key = "startDate" ∨ key = "endDate" →
      dateOnly (updated.tournament key) = dateOnly (entry.tournament key) := fun key hkey =>
    hmerged dateOnly key (back_date lower entry providerId abbr hkey)
  unfold toRow
  rw [hid, hcreated, hpublished, hcount, hoffline, hidentity, hremainder, hsearchText,
    hdates "startDate" (Or.inl rfl), hdates "endDate" (Or.inr rfl)]
  have hcolumns := fun key (hkey : key ∈ COLUMN_FIELDS) => hcolumn key hkey
  simp only [COLUMN_FIELDS, List.forall_mem_cons] at hcolumns
  obtain ⟨hname, hstatus, himage, hresources, hevents, hvenues, hprofile, hcontacts, haddress,
    hpublish, htimes, hnotes, -⟩ := hcolumns
  rw [hname, hstatus, himage, hresources, hevents, hvenues, hprofile, hcontacts, haddress,
    hpublish, htimes, hnotes]
  rfl

end Rows

end FactoryServer.CalendarRows
