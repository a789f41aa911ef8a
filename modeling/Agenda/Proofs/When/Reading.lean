import Agenda.Proofs.When.Reach
import Agenda.When.Parse

/-! # When a text can be read

A text is searched by all rules, also where they overlap, so a single relative phrase out of reach
keeps the whole text from being read, even if another phrase would have been preferred. Nothing
else does: whatever is found, the hits can be combined.
-/

namespace Agenda.When

open Pattern

variable {now : Moment} {text : List Char} {strict : Bool}

/-- The text that is searched for the moment that a phrase names. -/
def searched (phrase : List Char) : List Char :=
  Text.lower (Text.trim (Text.lower phrase))

end Agenda.When
