import Agenda.Text.Blank
import Agenda.Text.Case

/-! # Names of weekdays and months

Full and short English names. Weekdays are numbered from Sunday, 0, months from January, 1.
-/

namespace Agenda

def weekdayNames : List String :=
  ["sunday", "monday", "tuesday", "wednesday", "thursday", "friday", "saturday"]

def weekdayAliases : List (String × Int) :=
  [("sun", 0), ("mon", 1), ("tue", 2), ("tues", 2), ("wed", 3), ("thu", 4), ("thur", 4), ("thurs", 4),
    ("fri", 5), ("sat", 6)]

/-- The number of a weekday given by its full lower-case name. -/
def weekdayNamed? (name : List Char) : Option Int :=
  (weekdayNames.findIdx? (·.toList == name)).map Int.ofNat

/-- The number of a weekday given by a full or short name in any case. -/
def weekdayNumber? (name : List Char) : Option Int :=
  let n := Text.lower (Text.trim name)
  weekdayNamed? n <|> weekdayAliases.lookup (String.ofList n)

def weekdayAbbreviation (weekday : Int) : String :=
  (["Sun", "Mon", "Tue", "Wed", "Thu", "Fri", "Sat"][weekday.toNat]?).getD ""

def monthAbbreviation (month : Int) : String :=
  (["Jan", "Feb", "Mar", "Apr", "May", "Jun", "Jul", "Aug", "Sep", "Oct", "Nov",
    "Dec"][month.toNat - 1]?).getD ""

end Agenda
