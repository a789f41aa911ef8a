import Agenda.Pattern
import Agenda.Time.Moment
import Agenda.Task.Basic

/-! # Explicit markers

Tags and priorities that the writer of a text asked for: `#tag`, `tag is`, `!priority` and
`priority is`, and the requests to leave tags out and to be reminded.
-/

namespace Agenda.Extract

open Pattern

def deleteTags : Pattern :=
  edge ++ keywords ["delete", "remove"] ++ blanks ++ keyword "tag" ++ opt (keyword "s") ++ edge

def hashtag : Pattern :=
  char '#' ++ capture 1 word

def tagIs : Pattern :=
  edge ++ keywords ["tag", "hashtag"] ++ blanks ++ keyword "is" ++ blanks ++ capture 1 word

def bangPriority : Pattern :=
  char '!' ++ capture 1 word

def priorityIs : Pattern :=
  edge ++ keyword "priority" ++ blanks ++ keyword "is" ++ blanks ++ capture 1 word

def wantsTagsRemoved (text : List Char) : Bool :=
  deleteTags.found text

def hasTagMarker (text : List Char) : Bool :=
  text.contains '#' || tagIs.found text

def hasPriorityMarker (text : List Char) : Bool :=
  bangPriority.found text || priorityIs.found text

def distinct (xs : List String) : List String :=
  xs.foldl (fun out x => if out.contains x then out else out ++ [x]) []

def explicitTags (text : List Char) : List String :=
  if wantsTagsRemoved text then []
  else distinct ((hashtag.all text ++ tagIs.all text).map fun m => String.ofList (Text.lower (m.text 1)))

def explicitPriority (text : List Char) : Option Priority :=
  (bangPriority.search text <|> priorityIs.search text).bind fun m => Priority.ofWord? (m.text 1)

def stripMarkers (text : List Char) : List Char :=
  let out := [hashtag, bangPriority, tagIs, priorityIs, deleteTags, keyword "task description"].foldl
    (fun text p => p.erase text) text
  Text.trim (Text.squeezeWide out)

/-! ## Reminders asked for in a text -/

def reminderWords : Pattern :=
  edge ++ keywords ["remind", "alert", "notification", "notify"] ++ edge

/-- How long before the due date a reminder comes. -/
def reminderLead : Int := 30 * minuteTicks

/-- The reminder that a text asks for, ahead of the due date. -/
def reminderFor (text : List Char) (due : Option Moment) : Except Fault (Option Moment) :=
  match due with
  | some due => if reminderWords.found text then (due.plus (-reminderLead)).map some else .ok none
  | none => .ok none

end Agenda.Extract
