import Agenda.Extract.Markers
import Agenda.Extract.Result
import Agenda.When.Parse

/-! # Extraction without a model

Patterns alone take a text apart into a title, a due date, tags and a priority. There is always a
task: where the patterns leave no title or a date leaves the calendar, the text itself becomes the
title. Names of observances stay in the title and are no tags.
-/

namespace Agenda.Extract

open Pattern

def observances : List String :=
  ["namaz", "prayer", "salah", "salat", "jummah", "dhuhr", "asr", "maghrib", "isha", "fajr"]

/-! ## Reminder phrases -/

/-- `remind me`, `alert us` and the like. -/
def intro : Pattern :=
  edge ++ anyOf [keyword "remind" ++ opt (keyword "er"), keyword "alert", keyword "notify"] ++ blanks ++
    opt (keywords ["me", "us"] ++ edge ++ blanks0)

def linkWords : Pattern :=
  keywords ["to", "of", "about"]

def optionalLink : Pattern :=
  opt (linkWords ++ blanks)

def reminderIntro : Pattern :=
  intro ++ optionalLink

/-- The rest of the line without blanks at its end, as capture `n`. -/
def remainder (n : Nat) : Pattern :=
  capture n phrase ++ blanks0 ++ ends

def timeThenTask : Pattern :=
  intro ++ capture 1 phrase ++ blanks ++ linkWords ++ blanks ++ remainder 2

def taskThenTime : Pattern :=
  intro ++ linkWords ++ blanks ++ remainder 1

/-- Blanks before a word that may begin a time. -/
def timeWord : Pattern :=
  blanks ++ ahead (keywords ["at", "on", "in", "by", "tomorrow", "tommorrow", "today", "tonight", "next",
    "this"] ++ edge)

def anything : Pattern :=
  intro ++ optionalLink ++ remainder 1

/-! ## Clearing a title -/

def leadingVerbs : Pattern :=
  starts ++ keywords ["add", "create", "make", "new", "task", "todo", "to do", "remember to", "remember",
    "i need to", "need to"] ++ blanks

def weekdayOr (more : List String) : Pattern :=
  keywords (["monday", "tuesday", "wednesday", "thursday", "friday", "saturday", "sunday"] ++ more)

def plural (s : String) : Pattern :=
  keyword s ++ opt (keyword "s")

def clockDigits : Pattern :=
  upTo Text.isDigit 1 2 ++ opt (char ':' ++ upTo Text.isDigit 2 2)

def halfWords : Pattern :=
  keywords ["am", "pm"]

def dayDigits : Pattern :=
  upTo Text.isDigit 1 2 ++ opt (keywords ["st", "nd", "rd", "th"])

/-- A letter of the ASCII alphabet in any case. -/
def anyLetter (c : Char) : Bool :=
  "abcdefghijklmnopqrstuvwxyz".toList.any (Text.sameLetter · c)

def monthWord : Pattern :=
  keywords When.monthPrefixes ++ some0 anyLetter

def datePhrases : List Pattern :=
  [edge ++ keywords ["today", "tonight", "tomorrow", "tommorrow", "yesterday"] ++ edge,
    edge ++ keywords ["next", "this", "coming", "last"] ++ blanks ++
      weekdayOr ["week", "month", "year"] ++ edge,
    edge ++ opt (keyword "on" ++ blanks) ++ weekdayOr [] ++ edge,
    edge ++ keywords ["in", "after", "before", "around", "at"] ++ blanks ++ some1 Text.isDigit ++ blanks ++
      anyOf (["minute", "hour", "day", "week", "month", "year"].map plural) ++ edge,
    edge ++ keywords ["at", "on", "before", "after", "by"] ++ blanks ++ clockDigits ++ blanks0 ++
      opt halfWords ++ edge,
    edge ++ clockDigits ++ blanks0 ++ halfWords ++ edge,
    edge ++ monthWord ++ blanks ++ dayDigits ++ edge,
    edge ++ dayDigits ++ blanks ++ monthWord ++ edge,
    edge ++ opt (keyword "in" ++ blanks ++ keyword "the" ++ blanks) ++
      keywords ["morning", "afternoon", "evening"] ++ edge]

def danglingLink : Pattern :=
  blanks ++ keywords ["at", "on", "by", "in", "to", "of", "about"] ++ ends

def titlePunctuation : List Char := [' ', ',', '.', ';', ':', '!', '?']

def tidy (text : List Char) : List Char :=
  Text.stripBoth titlePunctuation.contains (danglingLink.erase (Text.trim (Text.squeeze text)))

def isNoise (title : List Char) : Bool :=
  title.length < 2 || title.all fun c => Text.blank c || ".,!?;:".toList.contains c

/-! ## The tier -/

/-- The title and the due date of the first candidate phrase that is a date throughout. -/
def firstTime (rest : List Char) (now : Moment) : List Match → Except Fault (Option (List Char × Moment))
  | [] => .ok none
  | split :: splits => do
    match ← When.parse (rest.drop split.stop) now true with
    | some due => return some (tidy (stripMarkers (rest.take split.start)), due)
    | none => firstTime rest now splits

def splitTimeFirst (text : List Char) (now : Moment) : Except Fault (Option (List Char × Moment)) := do
  match timeThenTask.search text with
  | none => return none
  | some m => return (← When.parse (m.text 1) now true).map fun due => (tidy (stripMarkers (m.text 2)), due)

def splitTimeLast (text : List Char) (now : Moment) : Except Fault (Option (List Char × Moment)) := do
  match taskThenTime.search text with
  | none => return none
  | some m => firstTime (m.text 1) now (timeWord.all (m.text 1))

/-- A reminder phrase with a time anywhere. -/
def splitAnywhere (text : List Char) (now : Moment) : Except Fault (Option (List Char × Moment)) := do
  match anything.search text with
  | none => return none
  | some m =>
    let rest := stripMarkers (m.text 1)
    match ← When.search rest now with
    | none => return none
    | some found => return some (tidy (← When.stripDates rest now), found.value)

/-- The title and the due date of a reminder phrase. -/
def splitReminder (text : List Char) (now : Moment) : Except Fault (Option (List Char × Moment)) := do
  if let some found ← splitTimeFirst text now then return some found
  if let some found ← splitTimeLast text now then return some found
  splitAnywhere text now

/-- The title and the due date of any other text; the date is looked for in the whole text. -/
def splitGeneric (text : List Char) (now : Moment) : Except Fault (List Char × Option Moment) := do
  let title := stripMarkers (reminderIntro.replaceFirst (fun _ => []) text)
  let title := leadingVerbs.erase (Text.trim title)
  let title := datePhrases.foldl (fun title p => p.erase title) title
  return (tidy title, ← When.parse text now false)

def wholeWord (term : String) : Pattern :=
  edge ++ keyword term ++ edge

/-- The title with every observance of the text that it lost. -/
def protectTerms (text title : List Char) : List Char :=
  (observances.filter fun term => (wholeWord term).found text).foldl
    (fun title term =>
      if (wholeWord term).found title then title else Text.trim (title ++ ' ' :: term.toList)) title

def orTask (title : List Char) : List Char :=
  if title.isEmpty then "Task".toList else title

def heuristicTask (text : List Char) (now : Moment) : Except Fault ParsedTask := do
  let tags := (explicitTags text).filter (!observances.contains ·)
  let priority := explicitPriority text
  let (title, due) ← match ← splitReminder text now with
    | some (title, due) => pure (title, some due)
    | none => splitGeneric text now
  let title := protectTerms text title
  let title := if isNoise title then
      orTask (tidy (stripMarkers (reminderIntro.replaceFirst (fun _ => []) text)))
    else title
  let reminder ← reminderFor text due
  return { title := String.ofList (Text.capitalize title), due, tags, priority, reminder
           source := .heuristic }

def rawTask (text : List Char) : ParsedTask :=
  { title := String.ofList (orTask (Text.capitalize (Text.trim text))) }

def heuristic (text : List Char) (now : Moment) : TierResult :=
  match heuristicTask text now with
  | .ok task => ⟨.heuristic, .ok task⟩
  | .error _ => ⟨.heuristic, .ok (rawTask text)⟩

end Agenda.Extract
