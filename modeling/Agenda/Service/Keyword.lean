import Agenda.Service.Basic
import Agenda.Value.Print
import Agenda.Pattern

/-! # The keyword service

A service without a model: deterministic and offline. It takes the text out of an extraction
prompt and cuts a time phrase off its end; it sorts a text under the label of the example with
which it shares most words.
-/

namespace Agenda.Keyword

open Pattern

/-- The quoted text of an extraction prompt, as capture 1. -/
def promptedText : Pattern :=
  exactly "Now parse this input: \"" ++ capture 1 (some0 fun _ => true) ++ char '"'

/-- The words that open a time phrase. -/
def timeOpening : Pattern :=
  anyOf [keyword "tomorrow", keyword "today", keyword "tonight", keyword "next" ++ blanks ++ word,
    keyword "in" ++ blanks ++ some1 Text.isDigit ++ blanks ++ word,
    keyword "on" ++ blanks ++ word ++ keyword "day"]

/-- A time phrase up to the end of the line, as capture 1. -/
def trailingTime : Pattern :=
  blanks ++ capture 1 (either (timeOpening ++ edge) (keyword "at" ++ blanks ++ one Text.isDigit) ++
    some0 inLine) ++ ends

/-- The title and the time phrase of a text. -/
def splitTime (text : List Char) : List Char × Option (List Char) :=
  match trailingTime.search text with
  | some m => (text.take m.start, some (m.text 1))
  | none => (text, none)

def taskObject (text : List Char) : Value :=
  let (title, due) := splitTime text
  let title := Text.trim title
  .object [("title", .str (String.ofList (if title.isEmpty then text else title))),
    ("due", .ofStr? (due.map String.ofList)), ("tags", .list []), ("priority", .null)]

def generate (user : String) : String :=
  match promptedText.search user.toList with
  | some m => String.ofList (taskObject (m.text 1)).compact
  | none => "\x7b\x7d"

/-- The distinct words of a text in lower case. -/
def wordSet (text : String) : List (List Char) :=
  (Text.words (Text.lower text.toList)).eraseDups

def overlap (xs ys : List (List Char)) : Nat :=
  (xs.filter ys.contains).length

/-- The label of the first example with the most shared words, and their number. -/
def best (words : List (List Char)) (examples : List Example) : String × Nat :=
  examples.foldl (fun (label, score) e =>
    let n := overlap words (wordSet e.text)
    if score < n then (e.label, n) else (label, score)) ("", 0)

/-- One shared word is worth 0.7, two 0.9, more are certain. -/
def confidence (score : Nat) : Double :=
  let x := (Double.ofQuotient false 1 2).plus ((Double.ofQuotient false 1 5).timesNat score)
  if x.lt (.ofNat 1) then x else .ofNat 1

def classify (text : String) (examples : List Example) : Classification :=
  let (label, score) := best (wordSet text) examples
  if label = "" then ⟨((examples.head?).map (·.label)).getD "", .zero⟩
  else ⟨label, confidence score⟩

def service : Service where
  generate _ user := .ok (.str (generate user))
  classify text examples := .ok (classify text examples)

end Agenda.Keyword
