import Agenda.Proofs.Attempt
import Agenda.Proofs.Number.Nearest
import Agenda.Proofs.Text.Numeral
import Agenda.Proofs.Value.Entries
import Agenda.Value.Read

/-! # Data that JSON can hold

A JSON text holds no moments, no whole numbers that are too long to be read and no key twice. All
that is read from a text is such data.
-/

namespace Agenda

namespace Value

open Text

variable {n : Numeral} {v w : Value} {es : Entries} {u u' : Unread} {fuel : ℕ}

end Value

end Agenda
