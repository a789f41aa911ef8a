/-! # Sets of code points as toggle lists

A set of code points is stored as the increasing list of the places where membership changes:
the first entry opens a range, the second closes it, and so on.
-/

namespace Agenda.Text

/-- Membership in the set whose changes are listed, starting from `inside`. -/
def toggled : Bool → List Nat → Nat → Bool
  | inside, [], _ => inside
  | inside, t :: ts, n => if n < t then inside else toggled (!inside) ts n

end Agenda.Text
