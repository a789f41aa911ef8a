import Agenda.Proofs.Number.Nearest
import Agenda.Proofs.Text.Numeral
import Agenda.Value.Print
import Agenda.Value.Read

/-! # Numbers in JSON are read back

A numeral is read up to what it cannot go on with, piece by piece as it was written. The numerals of
whole numbers and the layouts of decimals are such numerals, with the value that was written.
-/

namespace Agenda.Value

open Text

/-! ## Numerals -/

/-- A numeral whose digits are digits. Only a zero alone leads the whole part. -/
structure Numeral.Sound (n : Numeral) : Prop where
  whole : ∀ c ∈ n.whole, isAscii c = true
  fraction : ∀ c ∈ n.fraction, isAscii c = true
  exponent : ∀ c ∈ n.exponent, isAscii c = true
  nonempty : n.whole ≠ []
  leading : n.whole.head? = some '0' → n.whole = ['0']

/-- What follows a numeral is nothing that it could go on with. -/
def Follows (rest : List Char) : Prop :=
  ∀ c ∈ rest.head?, isAscii c = false ∧ c ≠ '.' ∧ c ≠ 'e' ∧ c ≠ 'E'

variable {n : Numeral} {cs rest : List Char}

/-- What is written of a numeral after its whole part. -/
def Numeral.decimals (n : Numeral) : List Char :=
  if n.fraction.isEmpty then [] else '.' :: n.fraction

/-- How the exponent may be written: behind either mark, and without its sign unless that is a minus. -/
inductive Numeral.Powers (n : Numeral) : List Char → Prop
  | none (h : n.exponent = []) : n.Powers []
  | minus {mark : Char} (hMark : mark = 'e' ∨ mark = 'E') (hSome : n.exponent ≠ []) (hSign : n.exponentNegative = true) :
      n.Powers (mark :: '-' :: n.exponent)
  | plus {mark : Char} (hMark : mark = 'e' ∨ mark = 'E') (hSome : n.exponent ≠ []) (hSign : n.exponentNegative = false) :
      n.Powers (mark :: '+' :: n.exponent)
  | bare {mark : Char} (hMark : mark = 'e' ∨ mark = 'E') (hSome : n.exponent ≠ []) (hSign : n.exponentNegative = false) :
      n.Powers (mark :: n.exponent)

/-- How a numeral may be written. -/
def Numeral.Texts (n : Numeral) (cs : List Char) : Prop :=
  ∃ power, n.Powers power ∧ cs = (if n.negative then ['-'] else []) ++ (n.whole ++ (n.decimals ++ power))

def Numeral.power (n : Numeral) : List Char :=
  if n.exponent.isEmpty then [] else 'e' :: (if n.exponentNegative then '-' else '+') :: n.exponent

def Numeral.text (n : Numeral) : List Char :=
  (if n.negative then ['-'] else []) ++ (n.whole ++ (n.decimals ++ n.power))

variable {power : List Char}

variable {back : List Char}

variable {x : Double.Decimal}

def Numeral.signed (n : Numeral) (negative : Bool) : Numeral :=
  { n with negative }

theorem Numeral.Sound.signed (h : n.Sound) (negative : Bool) : (n.signed negative).Sound :=
  ⟨h.whole, h.fraction, h.exponent, h.nonempty, h.leading⟩

end Agenda.Value
