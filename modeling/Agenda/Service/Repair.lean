import Agenda.Value.Read
import Agenda.Pattern

/-! # Recovering objects from sloppy text

A service is asked for a JSON object and may wrap it in prose or a code fence, forget its closing
brace, or leave out quotes. A text that holds a sound object between other text gives that object.
-/

namespace Agenda.Repair

open Pattern

/-- The object that a text is; none if it is no JSON or no object. -/
def objectOf (text : List Char) : Except Fault (Option Entries) :=
  match Value.ofJson text with
  | .ok (.object es) => .ok (some es)
  | .ok _ => .ok none
  | .error (.notJson _) => .ok none
  | .error .numeralTooLong => .error .numeralTooLong

/-- An opening brace with no closing one gets one, in place of a last comma. -/
def completeBraces (text : List Char) : Option (List Char) :=
  if text.contains '{' && !text.contains '}' then
    some (Text.dropTail (· == ',') (Text.dropTail Text.blank (text.dropWhile (· != '{'))) ++ ['}'])
  else none

def fenceOpening : Pattern :=
  starts ++ exactly "\x60\x60\x60" ++ opt (exactly "json")

def fenceClosing : Pattern :=
  exactly "\x60\x60\x60" ++ ends

def jsonLabel : Pattern :=
  exactly "JSON:"

/-- The text without a code fence around it and without a label. -/
def stripFences (text : List Char) : List Char :=
  let text := fenceClosing.erase (fenceOpening.erase (Text.trim text))
  Text.trim (jsonLabel.replaceFirst (fun _ => []) text)

/-! ## Loosening -/

/-- Text between single quotes, as capture 1. -/
def singleQuoted : Pattern :=
  char '\'' ++ capture 1 (some0 (· != '\'')) ++ char '\''

def nameStart (c : Char) : Bool :=
  ('A' ≤ c && c ≤ 'Z') || ('a' ≤ c && c ≤ 'z') || c == '_'

/-- A bare key and its colon; the key is capture 1. -/
def bareKey : Pattern :=
  behind (fun c => c == '{' || c == ',' || Text.blank c) ++
    capture 1 (one nameStart ++ some0 Text.wordChar) ++ blanks0 ++ char ':'

def closing (c : Char) : Bool :=
  c == ',' || c == '}'

/-- A word or a number that needs no quotes. -/
def plainValue : Pattern :=
  anyOf [exactly "true", exactly "false", exactly "null",
    opt (char '-') ++ some1 Text.isDigit ++ opt (char '.' ++ some1 Text.isDigit)]

def bareStart (c : Char) : Bool :=
  !(['"', '[', ']', '{', '}', ','].contains c || Text.blank c)

def bareInside (c : Char) : Bool :=
  !(c == ',' || c == '}' || c == ']')

/-- A colon and a bare value, as capture 1, before a comma or a closing brace. -/
def bareValue : Pattern :=
  char ':' ++ blanks0 ++ notAhead (plainValue ++ blanks0 ++ one closing) ++
    capture 1 (one bareStart ++ many false bareInside 0 none) ++ blanks0 ++ ahead (one closing)

def trailingComma : Pattern :=
  char ',' ++ blanks0 ++ capture 1 (one fun c => c == '}' || c == ']')

def inQuotes (cs : List Char) : List Char :=
  '"' :: cs ++ ['"']

/-- Bare keys and values get quotes, single quotes become double ones, trailing commas go. -/
def loosen (text : List Char) : List Char :=
  let text := singleQuoted.replace (fun m => inQuotes (m.text 1)) text
  let text := bareKey.replace (fun m => inQuotes (m.text 1) ++ [':']) text
  let text := bareValue.replace (fun m => ':' :: ' ' :: inQuotes (m.text 1)) text
  trailingComma.replace (fun m => m.text 1) text

/-! ## Extraction -/

/-- The object that a text is as it stands, or once it is loosened. An empty object counts only in
the second reading. -/
def looseObject (text : List Char) : Except Fault (Option Entries) := do
  match ← objectOf text with
  | some (e :: es) => return some (e :: es)
  | _ => objectOf (loosen text)

/-- From the first opening brace to the last closing one. -/
def bracePattern : Pattern :=
  char '{' ++ some0 (fun _ => true) ++ char '}'

def braced? (text : List Char) : Option (List Char) :=
  (bracePattern.search text).map fun m => (text.drop m.start).take (m.stop - m.start)

/-- The first object found in a text. -/
def extractObject (text : List Char) : Except Fault (Option Entries) := do
  if text.isEmpty then return none
  if let some completed := completeBraces text then
    if let some es ← looseObject completed then return some es
  match braced? text <|> braced? (stripFences text) with
  | none => return none
  | some candidate => looseObject candidate

end Agenda.Repair
