import Agenda.Proofs.Pattern.First
import Agenda.Proofs.Pattern.Search
import Agenda.Proofs.Text.Blank
import Agenda.Proofs.Value.Braced
import Agenda.Proofs.Value.Digits
import Agenda.Proofs.Value.Readback
import Agenda.Service.Repair

/-! # Repaired text

Repair moves quotes, braces and commas, but never writes a digit. So if an answer cannot be read
for its numbers, it has itself more digits than a numeral may have.

What is sound is left as it is: the object that stands between texts without braces is found, and one
that only lacks its last brace gets it back.
-/

namespace Agenda.Repair

open Pattern Text Value

variable {p : Pattern} {text candidate : List Char}

/-! ## Replacing -/

variable {f : Fault}

/-- Some text with no more digits than this one cannot be read. -/
def Unreadable (text : List Char) (f : Fault) : Prop :=
  ∃ tried, digits tried ≤ digits text ∧ objectOf tried = .error f

theorem Unreadable.of_le (h : Unreadable candidate f) (hLe : digits candidate ≤ digits text) : Unreadable text f := by
  obtain ⟨tried, hDigits, hObject⟩ := h
  exact ⟨tried, Nat.le_trans hDigits hLe, hObject⟩

variable {front back body core : List Char} {es : Entries}

/-- Without braces of either kind. -/
structure Braceless (cs : List Char) : Prop where
  opening : '{' ∉ cs
  closing : '}' ∉ cs

theorem Braceless.append (hFront : Braceless front) (hBack : Braceless back) : Braceless (front ++ back) :=
  ⟨fun h => (List.mem_append.mp h).elim hFront.opening hBack.opening,
    fun h => (List.mem_append.mp h).elim hFront.closing hBack.closing⟩

variable {kept comma space : List Char}

end Agenda.Repair
