import Agenda.Task.Order
import Agenda.Value.Decode

/-! # Preferences

How the task list is shown. They are stored under four keys; a stored criterion that is none falls
back to the creation date, and a filter that is no text resets everything.
-/

namespace Agenda

structure Preferences where
  sortBy : String := SortBy.createdAt.name
  dark : Bool := false
  calendar : Bool := false
  filterTag : Option String := none
deriving DecidableEq

namespace Preferences

open Value

def data (p : Preferences) : Value :=
  .object [("sort_criteria", .str p.sortBy), ("dark_mode", .bool p.dark),
    ("show_calendar", .bool p.calendar), ("filter_tag", .ofStr? p.filterTag)]

def decodeSortBy (v : Value) : Decoded String :=
  (decodeName SortBy.ofName? v).map SortBy.name

def decodeEntries (es : Entries) : Decoded Preferences :=
  Decoded.ok Preferences.mk
    |>.and (withDefault es "sort_criteria" SortBy.createdAt.name decodeSortBy)
    |>.and (withDefault es "dark_mode" false decodeBool)
    |>.and (withDefault es "show_calendar" false decodeBool)
    |>.and (withDefault es "filter_tag" none (decodeOption decodeStr))

def decode (v : Value) : Decoded Preferences :=
  Value.decodeEntries decodeEntries v

/-! ## Storage -/

def sortKey : String := "sortCriteria"
def darkKey : String := "darkMode"
def calendarKey : String := "showCalendar"
def filterKey : String := "filterTag"

def storedSort (v : Value) : String :=
  match decodeSortBy v with
  | .ok name => name
  | .bad _ => SortBy.createdAt.name

def load (storage : Entries) : Preferences :=
  match decodeOption decodeStr (storage.at? filterKey) with
  | .ok filterTag =>
    { sortBy := storedSort (storage.at? sortKey)
      dark := (storage.at? darkKey).truthy
      calendar := (storage.at? calendarKey).truthy
      filterTag }
  | .bad _ => {}

def save (p : Preferences) (storage : Entries) : Entries :=
  (((storage.insert sortKey (.str p.sortBy)).insert darkKey (.bool p.dark)).insert calendarKey
    (.bool p.calendar)).insert filterKey (.ofStr? p.filterTag)

end Preferences

end Agenda
