import Agenda.Value.Basic
import Agenda.Text.Numeral

/-! # Reading JSON

The notation of RFC 8259, and besides `NaN`, `Infinity` and `-Infinity`. A text that breaks the
rules is refused with the place where it stopped making sense; of a repeated key the last value
counts; a whole number is read exactly, unless its numeral is too long to be read.
-/

namespace Agenda

inductive ReadFault where
  | notJson (position : Nat)
  | numeralTooLong
deriving Repr, DecidableEq

def ReadFault.fault : ReadFault → Fault
  | .notJson _ => .notJson
  | .numeralTooLong => .numeralTooLong

/-- What is left of a text, and the index at which that begins. -/
structure Unread where
  rest : List Char
  index : Nat

namespace Unread

def skip (u : Unread) (n : Nat) : Unread :=
  ⟨u.rest.drop n, u.index + n⟩

def isSpace (c : Char) : Bool :=
  c == ' ' || c == '\t' || c == '\n' || c == '\r'

def skipSpace (u : Unread) : Unread :=
  u.skip (u.rest.takeWhile isSpace).length

def leads (u : Unread) (word : List Char) : Bool :=
  word.isPrefixOf u.rest

end Unread

namespace Value

/-! ## Strings -/

/-- The number written by four hexadecimal digits that more text follows. -/
def hexCode? (cs : List Char) : Option Nat :=
  match cs with
  | a :: b :: c :: d :: _ :: _ => do
    return (((← Text.hexValue? a) * 16 + (← Text.hexValue? b)) * 16 + (← Text.hexValue? c)) * 16 +
      (← Text.hexValue? d)
  | _ => none

def simpleEscape? : Char → Option Char
  | '"' => some '"'
  | '\\' => some '\\'
  | '/' => some '/'
  | 'b' => some (Char.ofNat 8)
  | 'f' => some (Char.ofNat 12)
  | 'n' => some '\n'
  | 'r' => some '\r'
  | 't' => some '\t'
  | _ => none

/-- The character of an escape, given the text after the backslash, and how many characters of
that text it takes. Two escapes may stand for the halves of one character. -/
def readEscape (opening : Nat) (u : Unread) : Except ReadFault (Char × Nat) :=
  match u.rest with
  | [] => .error (.notJson opening)
  | 'u' :: cs =>
    match hexCode? cs with
    | none => .error (.notJson u.index)
    | some high =>
      if 0xD800 ≤ high ∧ high < 0xDC00 ∧ cs.length > 10 ∧ cs[4]? = some '\\' ∧ cs[5]? = some 'u' then
        match hexCode? (cs.drop 6) with
        | none => .error (.notJson (u.index + 6))
        | some low =>
          if 0xDC00 ≤ low ∧ low < 0xE000 then
            .ok (Char.ofNat (0x10000 + (high - 0xD800) * 0x400 + (low - 0xDC00)), 11)
          else .ok (Char.ofNat high, 5)
      else .ok (Char.ofNat high, 5)
  | c :: _ =>
    match simpleEscape? c with
    | some d => .ok (d, 1)
    | none => .error (.notJson (u.index - 1))

/-- The characters up to the closing quote, after which `Unread` begins; `opening` is the place of
the opening quote. -/
def readString (opening : Nat) : Nat → List Char → Unread → Except ReadFault (List Char × Unread)
  | 0, _, _ => .error (.notJson opening)
  | fuel + 1, before, u =>
    match u.rest with
    | [] => .error (.notJson opening)
    | '"' :: _ => .ok (before.reverse, u.skip 1)
    | '\\' :: _ => do
      let (c, n) ← readEscape opening (u.skip 1)
      readString opening fuel (c :: before) (u.skip (n + 1))
    | c :: _ =>
      if c.toNat < 32 then .error (.notJson u.index)
      else readString opening fuel (c :: before) (u.skip 1)

/-! ## Numbers -/

def isAscii (c : Char) : Bool :=
  48 ≤ c.toNat && c.toNat ≤ 57

/-- The characters of a number: sign, whole part, fraction and exponent, with its sign. -/
structure Numeral where
  negative : Bool
  whole : List Char
  fraction : List Char
  exponentNegative : Bool
  exponent : List Char

def Numeral.isWhole (n : Numeral) : Bool :=
  n.fraction.isEmpty && n.exponent.isEmpty

def Numeral.value (n : Numeral) : Except ReadFault Value :=
  if n.isWhole then
    match Text.numeral? n.whole with
    | some k => .ok (.int (if n.negative then -k else k))
    | none => .error .numeralTooLong
  else
    let e : Int := Text.numeral n.exponent
    let e := if n.exponentNegative then -e else e
    .ok (.num (Double.ofDecimal n.negative (Text.numeral (n.whole ++ n.fraction)) (e - n.fraction.length)))

/-- The longest number at the start of a text, and its length. -/
def takeNumeral? (cs : List Char) : Option (Numeral × Nat) :=
  let negative := cs.head? == some '-'
  let signed := if negative then 1 else 0
  let body := cs.drop signed
  let whole := if body.head? == some '0' then ['0'] else body.takeWhile isAscii
  if whole.isEmpty then none
  else
    let rest := body.drop whole.length
    let fraction := if rest.head? == some '.' then (rest.drop 1).takeWhile isAscii else []
    let fractionLength := if fraction.isEmpty then 0 else fraction.length + 1
    let rest := rest.drop fractionLength
    let marked := rest.head? == some 'e' || rest.head? == some 'E'
    let sign := (rest.drop 1).head?
    let signLength := if sign == some '-' || sign == some '+' then 1 else 0
    let exponent := if marked then (rest.drop (1 + signLength)).takeWhile isAscii else []
    let exponentLength := if exponent.isEmpty then 0 else 1 + signLength + exponent.length
    some (⟨negative, whole, fraction, sign == some '-', exponent⟩,
      signed + whole.length + fractionLength + exponentLength)

/-! ## Values -/

def constants : List (List Char × Value) :=
  [("null".toList, .null), ("true".toList, .bool true), ("false".toList, .bool false),
    ("NaN".toList, .num .nan), ("Infinity".toList, .num (.infinite false)),
    ("-Infinity".toList, .num (.infinite true))]

mutual

/-- The value at the start of a text without leading space. -/
def readValue : Nat → Unread → Except ReadFault (Value × Unread)
  | 0, u => .error (.notJson u.index)
  | fuel + 1, u =>
    match u.rest with
    | [] => .error (.notJson u.index)
    | '"' :: _ => do
      let (cs, u) ← readString u.index (u.rest.length + 1) [] (u.skip 1)
      return (.str (String.ofList cs), u)
    | '[' :: _ =>
      let u := (u.skip 1).skipSpace
      if u.rest.head? == some ']' then .ok (.list [], u.skip 1) else readItems fuel [] u
    | '{' :: _ =>
      let u := (u.skip 1).skipSpace
      if u.rest.head? == some '}' then .ok (.object [], u.skip 1) else readEntries fuel [] u
    | cs =>
      match constants.find? fun c => u.leads c.1 with
      | some (word, v) => .ok (v, u.skip word.length)
      | none =>
        match takeNumeral? cs with
        | some (n, length) => do return (← n.value, u.skip length)
        | none => .error (.notJson u.index)

/-- The items of a list from the start of an item on; `before` holds those read, backwards. -/
def readItems : Nat → List Value → Unread → Except ReadFault (Value × Unread)
  | 0, _, u => .error (.notJson u.index)
  | fuel + 1, before, u => do
    let (v, u) ← readValue fuel u
    let u := u.skipSpace
    match u.rest.head? with
    | some ']' => return (.list (v :: before).reverse, u.skip 1)
    | some ',' => readItems fuel (v :: before) (u.skip 1).skipSpace
    | _ => .error (.notJson u.index)

/-- The entries of an object from the start of a key on. -/
def readEntries : Nat → Entries → Unread → Except ReadFault (Value × Unread)
  | 0, _, u => .error (.notJson u.index)
  | fuel + 1, before, u => do
    if u.rest.head? != some '"' then .error (.notJson u.index)
    else
      let (key, u) ← readString u.index (u.rest.length + 1) [] (u.skip 1)
      let u := u.skipSpace
      if u.rest.head? != some ':' then .error (.notJson u.index)
      else
        let (v, u) ← readValue fuel (u.skip 1).skipSpace
        let u := u.skipSpace
        let entries := before.insert (String.ofList key) v
        match u.rest.head? with
        | some '}' => return (.object entries, u.skip 1)
        | some ',' => readEntries fuel entries (u.skip 1).skipSpace
        | _ => .error (.notJson u.index)

end

/-- The value that a text holds, with nothing but space around it. -/
def ofJson (cs : List Char) : Except ReadFault Value := do
  if cs.head? == some (Char.ofNat 0xFEFF) then .error (.notJson 0)
  else
    let (v, u) ← readValue (cs.length + 1) (Unread.skipSpace ⟨cs, 0⟩)
    let u := u.skipSpace
    if u.rest.isEmpty then return v else .error (.notJson u.index)

end Value

end Agenda
