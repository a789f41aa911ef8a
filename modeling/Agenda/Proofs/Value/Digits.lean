import Agenda.Proofs.Attempt
import Agenda.Value.Read

/-! # Digits in JSON

A numeral that is too long to be read is made of digits of the text. So a text with no more digits
than a numeral may have is read or is no JSON, but never fails over a number.
-/

namespace Agenda.Value

open Text

variable {α β : Type} {u v : Unread} {cs : List Char}

/-- The ASCII digits of a text. -/
def digits (cs : List Char) : Nat :=
  cs.countP isAscii

/-- What reading on from a place may come to: no digits are left that were not there, and a numeral
is too long only where there are that many digits. -/
def Thrifty (u : Unread) : Except ReadFault (α × Unread) → Prop
  | .ok (_, v) => digits v.rest ≤ digits u.rest
  | .error .numeralTooLong => numeralLimit < digits u.rest
  | .error (.notJson _) => True

variable {x : Except ReadFault (α × Unread)} {f : α × Unread → Except ReadFault (β × Unread)}

theorem Thrifty.of_le (h : Thrifty v x) (hLe : digits v.rest ≤ digits u.rest) : Thrifty u x := by
  match x, h with
  | .ok _, h => exact Nat.le_trans h hLe
  | .error .numeralTooLong, h => exact Nat.lt_of_lt_of_le h hLe
  | .error (.notJson _), _ => trivial

theorem Thrifty.bind (hx : Thrifty u x) (hf : ∀ a v, Thrifty v (f (a, v))) : Thrifty u (x >>= f) := by
  match x, hx with
  | .ok (a, v), hx => exact (hf a v).of_le hx
  | .error .numeralTooLong, hx => exact hx
  | .error (.notJson _), _ => trivial

/-! ## Strings -/

end Agenda.Value
