import Agenda.Value.Basic
import Agenda.Number.Shortest
import Agenda.Time.Print
import Agenda.Text.Quoted

/-! # Writing JSON

The compact form keeps to ASCII and goes between services; the indented form keeps every
character as it is and goes to files. A third form shows a value inside a title or a label.
-/

namespace Agenda

namespace Value

/-! ## Strings and numbers -/

def shortEscape? : Char → Option Char
  | '"' => some '"'
  | '\\' => some '\\'
  | '\n' => some 'n'
  | '\r' => some 'r'
  | '\t' => some 't'
  | c => if c.toNat = 8 then some 'b' else if c.toNat = 12 then some 'f' else none

def unicodeEscape (n : Nat) : List Char :=
  '\\' :: 'u' :: Text.hexDigits 4 n

/-- A character inside a string that keeps all but controls, quotes and backslashes. -/
def plainChar (c : Char) : List Char :=
  match shortEscape? c with
  | some d => ['\\', d]
  | none => if c.toNat < 32 then unicodeEscape c.toNat else [c]

/-- A character inside a string of ASCII; beyond the basic plane it takes two escapes. -/
def asciiChar (c : Char) : List Char :=
  match shortEscape? c with
  | some d => ['\\', d]
  | none =>
    let n := c.toNat
    if 32 ≤ n && n < 127 then [c]
    else if n < 65536 then unicodeEscape n
    else unicodeEscape (0xD800 + (n - 65536) / 1024) ++ unicodeEscape (0xDC00 + (n - 65536) % 1024)

def quote (char : Char → List Char) (s : String) : List Char :=
  '"' :: s.toList.flatMap char ++ ['"']

def numText : Double → List Char
  | .nan => "NaN".toList
  | .infinite false => "Infinity".toList
  | .infinite true => "-Infinity".toList
  | x => x.text

def boolText (b : Bool) : List Char :=
  (if b then "true" else "false").toList

/-! ## The compact form -/

mutual

def compact : Value → List Char
  | .null => "null".toList
  | .bool b => boolText b
  | .int n => Text.ofInt n
  | .num x => numText x
  | .str s => quote asciiChar s
  | .moment m => quote asciiChar (String.ofList m.dataText)
  | .list [] => "[]".toList
  | .list (v :: vs) => '[' :: compact v ++ compactItems vs
  | .object [] => ['{', '}']
  | .object ((k, v) :: es) => '{' :: quote asciiChar k ++ ": ".toList ++ compact v ++ compactEntries es

def compactItems : List Value → List Char
  | [] => [']']
  | v :: vs => ", ".toList ++ compact v ++ compactItems vs

def compactEntries : List (String × Value) → List Char
  | [] => ['}']
  | (k, v) :: es => ", ".toList ++ quote asciiChar k ++ ": ".toList ++ compact v ++ compactEntries es

end

/-! ## The indented form -/

def newline (depth : Nat) : List Char :=
  '\n' :: List.replicate (2 * depth) ' '

mutual

def indented (depth : Nat) : Value → List Char
  | .null => "null".toList
  | .bool b => boolText b
  | .int n => Text.ofInt n
  | .num x => numText x
  | .str s => quote plainChar s
  | .moment m => quote plainChar (String.ofList m.dataText)
  | .list [] => "[]".toList
  | .list (v :: vs) => '[' :: newline (depth + 1) ++ indented (depth + 1) v ++ indentedItems depth vs
  | .object [] => ['{', '}']
  | .object ((k, v) :: es) =>
    '{' :: newline (depth + 1) ++ quote plainChar k ++ ": ".toList ++ indented (depth + 1) v ++
      indentedEntries depth es

def indentedItems (depth : Nat) : List Value → List Char
  | [] => newline depth ++ [']']
  | v :: vs => ',' :: newline (depth + 1) ++ indented (depth + 1) v ++ indentedItems depth vs

def indentedEntries (depth : Nat) : List (String × Value) → List Char
  | [] => newline depth ++ ['}']
  | (k, v) :: es =>
    ',' :: newline (depth + 1) ++ quote plainChar k ++ ": ".toList ++ indented (depth + 1) v ++
      indentedEntries depth es

end

/-! ## The form shown to people -/

mutual

/-- A value inside a list or an object that is shown. -/
def shownInside : Value → List Char
  | .null => "None".toList
  | .bool b => (if b then "True" else "False").toList
  | .int n => Text.ofInt n
  | .num x => x.text
  | .str s => Text.quoted s.toList
  | .moment m => m.text
  | .list [] => "[]".toList
  | .list (v :: vs) => '[' :: shownInside v ++ shownItems vs
  | .object [] => ['{', '}']
  | .object ((k, v) :: es) => '{' :: Text.quoted k.toList ++ ": ".toList ++ shownInside v ++ shownEntries es

def shownItems : List Value → List Char
  | [] => [']']
  | v :: vs => ", ".toList ++ shownInside v ++ shownItems vs

def shownEntries : List (String × Value) → List Char
  | [] => ['}']
  | (k, v) :: es =>
    ", ".toList ++ Text.quoted k.toList ++ ": ".toList ++ shownInside v ++ shownEntries es

end

/-- A value as text: a string is itself. -/
def shown : Value → String
  | .str s => s
  | v => String.ofList v.shownInside

end Value

end Agenda
