import Agenda.Text.Bytes
import Agenda.Text.Numeral
import Agenda.Address.Label
import Agenda.Text.Case

/-! # Hosts

A host is named by four numbers, by the groups of a long numeric address in brackets, or by a name.
What looks like four numbers has to be an address. Names are in lower case.
-/

namespace Agenda.Address

/-! ## Escapes in addresses

A character that may not stand in a part of an address is written as its bytes, each a percent
sign and two hexadecimal digits. A percent sign itself may always stand, so what is already
escaped stays as it is.
-/

def hexDigit (n : Nat) : Char :=
  Char.ofNat (if n < 10 then 48 + n else 55 + n)

def escapeByte (b : Nat) : List Char :=
  ['%', hexDigit (b / 16), hexDigit (b % 16)]

/-- The printable characters of ASCII without some. -/
def plainBut (without : String) (c : Char) : Bool :=
  32 < c.toNat && c.toNat < 127 && !without.toList.contains c

/-- A text in which only the characters in `stays` are left. -/
def escape (stays : Char → Bool) (cs : List Char) : List Char :=
  cs.flatMap fun c => if stays c then [c] else (Text.charBytes c).flatMap escapeByte

/-- The bytes of a text with its escapes undone; a percent sign that begins none stays. -/
def unescapedBytes : List Char → List Nat
  | [] => []
  | '%' :: a :: b :: cs =>
    match Text.hexValue? a, Text.hexValue? b with
    | some x, some y => (16 * x + y) :: unescapedBytes cs
    | _, _ => Text.charBytes '%' ++ unescapedBytes (a :: b :: cs)
  | c :: cs => Text.charBytes c ++ unescapedBytes cs

def unescape (cs : List Char) : List Char :=
  Text.ofBytes (unescapedBytes cs)

theorem escape_eq_self {stays : Char → Bool} {cs : List Char} (h : ∀ c ∈ cs, stays c = true) :
    escape stays cs = cs := by
  induction cs with
  | nil => rfl
  | cons c cs ih =>
    have hc := h c (.head _)
    simp only [escape, List.flatMap_cons, hc, if_true, List.singleton_append] at ih ⊢
    rw [ih fun d hd => h d (.tail _ hd)]

/-! ## Numeric hosts -/

def digits (cs : List Char) : Bool :=
  !cs.isEmpty && cs.all fun c => (Text.asciiDigit? c).isSome

def parts (cs : List Char) : List (List Char) :=
  cs.splitOnP (· == '.')

/-- Four numerals of any length with points between them. -/
def fourNumerals (cs : List Char) : Bool :=
  (parts cs).length == 4 && (parts cs).all digits

/-- A number up to 255 without leading zeros. -/
def byteAllowed (cs : List Char) : Bool :=
  digits cs && cs.length ≤ 3 && (cs.head? != some '0' || cs.length == 1) &&
    cs.foldl (fun n c => 10 * n + (Text.asciiDigit? c).getD 0) 0 ≤ 255

def fourBytes (cs : List Char) : Bool :=
  (parts cs).length == 4 && (parts cs).all byteAllowed

/-- A group of a long address: up to four hexadecimal digits. -/
def groupAllowed (cs : List Char) : Bool :=
  !cs.isEmpty && cs.length ≤ 4 && cs.all fun c => (Text.hexValue? c).isSome

/-- The groups of a long address; two stand for four bytes at its end. -/
def groupsOf? (cs : List Char) : Option (List (List Char)) :=
  let groups := cs.splitOnP (· == ':')
  match groups.getLast? with
  | some last =>
    if !last.contains '.' then some groups
    else if fourBytes last then some (groups.dropLast ++ [['0'], ['0']])
    else none
  | none => none

/-- A long address has eight groups; one inner empty group stands for all that are missing, and
only beside it the first and the last may be empty. -/
def longAddress (cs : List Char) : Bool :=
  match groupsOf? cs with
  | none => false
  | some groups =>
    if groups.length < 3 || 9 < groups.length then false
    else
      let inner := (groups.drop 1).dropLast
      let before := inner.takeWhile (!·.isEmpty)
      if before.length = inner.length then groups.length == 8 && groups.all groupAllowed
      else
        let after := inner.drop (before.length + 1)
        let front := groups.take 1 ++ before
        let back := after ++ groups.drop (groups.length - 1)
        let front := if front.head? == some [] then (if front.length = 1 then [] else front) else front
        let back := if back.getLast? == some [] then (if back.length = 1 then [] else back) else back
        front.all groupAllowed && back.all groupAllowed && front.length + back.length < 8

/-- A long address with the name of a zone behind a percent sign or without one. -/
def longAddressInZone (cs : List Char) : Bool :=
  let address := cs.takeWhile (· != '%')
  let zone := cs.drop (address.length + 1)
  longAddress address && (address.length = cs.length || (!zone.isEmpty && !zone.contains '%'))

/-! ## All hosts -/

/-- Characters that stand in a name in ASCII besides letters and digits. -/
def nameMarks : String :=
  "-._~!$&'()*+,;=\"`{}%|\\"

/-- A host in its normal form, without brackets. -/
def host? (cs : List Char) : Option (List Char) :=
  if cs.isEmpty then some []
  else if fourNumerals cs then if fourBytes cs then some cs else none
  else if cs.head? == some '[' && cs.getLast? == some ']' then
    let inner := (cs.drop 1).dropLast
    if longAddressInZone inner then some inner else none
  else if cs.all ascii then
    some (escape (fun c => c.isAlphanum || nameMarks.toList.contains c) (Text.lower cs))
  else asciiName? (Text.lower cs)

end Agenda.Address
