import Agenda.Proofs.Value.Grammar
import Agenda.Proofs.Value.Json

/-! # What is written as JSON is read back

The reader gives for every text the data that it denotes: the steps that it may take are as many as
the text has characters, and every part takes at least one character. The indented form of a value is
one of the texts that denote it, so it is read back as that value.
-/

namespace Agenda.Value

open Text

variable {c d : Char} {cs ds before chars rest text : List Char} {fuel index opening n high low : ℕ} {v : Value}
  {numeral : Numeral}

/-! ## Strings -/

theorem Hex.length_eq (h : Hex cs n) : cs.length = 4 := by
  cases h
  rfl

theorem skipSpace_of_not_isSpace (h : Unread.isSpace c = false) :
    Unread.skipSpace ⟨c :: cs, index⟩ = ⟨c :: cs, index⟩ := by
  unfold Unread.skipSpace
  rw [List.takeWhile_cons_of_neg (by rw [h]; decide)]
  rfl

/-- Behind a value there is space, or the sign that goes on with the list or the object, or nothing. -/
def Stops (rest : List Char) : Prop :=
  ∀ c ∈ rest.head?, Unread.isSpace c = true ∨ c = ',' ∨ c = ']' ∨ c = '}'

theorem Stops.behind {space : List Char} (hSpace : Space space) (h : Stops rest) : Stops (space ++ rest) := by
  cases space with
  | nil => exact h
  | cons c space =>
    rintro _ ⟨⟩
    exact .inl (hSpace c List.mem_cons_self)

theorem Opens.skipSpace (h : Opens cs) (rest : List Char) (index : ℕ) :
    Unread.skipSpace ⟨cs ++ rest, index⟩ = ⟨cs ++ rest, index⟩ := by
  obtain ⟨c, tail, rfl, hSpace, -⟩ := h
  exact skipSpace_of_not_isSpace hSpace

section Steps

variable {u u' : Unread} {items : List Value} {entries : Entries} {key : List Char}

end Steps

end Agenda.Value
