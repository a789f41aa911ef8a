import Agenda.Command.Basic
import Agenda.When.Hit
import Agenda.Task.Basic
import Agenda.Pattern

/-! # The grammar of commands

A line is matched against the rules in order, and the first rule that accepts it makes the
command. Words of the grammar are recognised in any case; titles and search phrases keep theirs.
Rules for fixed phrases come first, so that `show calendar` is not taken for a tag filter.
-/

namespace Agenda.Command

open Pattern

/-! ## Markers at the end of a new task

A trailing `#tag` and a trailing `!priority` are peeled off in any order, one of each; failing a
tag, a trailing `as` and a word name it.
-/

/-- Some of the line before a blank, as capture 1. -/
def leadPattern : Pattern :=
  starts ++ capture 1 (many false inLine 0 none) ++ blanks

def tagMarker : Pattern :=
  leadPattern ++ char '#' ++ capture 2 word ++ ends

def priorityMarker : Pattern :=
  leadPattern ++ char '!' ++ capture 2 word ++ ends

def asMarker : Pattern :=
  leadPattern ++ keyword "as" ++ blanks ++ capture 2 word ++ ends

structure Peeled where
  rest : List Char
  tag : Option (List Char) := none
  priorityWord : Option (List Char) := none

/-- Peels one marker of a sort that was not yet seen. -/
def Peeled.step? (p : Peeled) : Option Peeled :=
  (match p.tag, tagMarker.matchStart p.rest with
    | none, some m => some { p with rest := Text.trim (m.text 1), tag := some (Text.lower (m.text 2)) }
    | _, _ => none) <|>
  (match p.priorityWord, priorityMarker.matchStart p.rest with
    | none, some m => some { p with rest := Text.trim (m.text 1), priorityWord := some (m.text 2) }
    | _, _ => none)

/-- Peels up to `n` markers. -/
def Peeled.steps : Nat → Peeled → Peeled
  | 0, p => p
  | n + 1, p => match p.step? with
    | some p => steps n p
    | none => p

/-- A text without its trailing markers, with the tag and the priority that they name. -/
def splitMarkers (text : List Char) : List Char × Option (List Char) × Option Priority :=
  let p := Peeled.steps 2 { rest := Text.trim text }
  let priority := p.priorityWord.bind Priority.ofWord?
  match p.tag, asMarker.matchStart p.rest with
  | none, some m => (Text.trim (m.text 1), some (Text.lower (m.text 2)), priority)
  | tag, _ => (p.rest, tag, priority)

/-! ## Rules -/

structure GrammarRule where
  pattern : Pattern
  build : Match → Moment → Except Fault (Option Command)

/-! ## Pieces of patterns -/

/-- A whole line made of the given parts. -/
def lineOf (parts : List Pattern) : Pattern :=
  parts.foldr (· ++ ·) ends |> (starts ++ ·)

/-- Words of a fixed phrase with blanks between them. -/
def fixed (ws : List String) : Pattern :=
  match ws with
  | [] => empty
  | [w] => keyword w
  | w :: ws => keyword w ++ blanks ++ fixed ws

/-- The word `all`, as capture 1 if it is there. -/
def allPattern : Pattern :=
  opt (capture 1 (keyword "all" ++ blanks))

def weekdayKeyword : Pattern :=
  keywords weekdayNames

def numeralPattern : Pattern :=
  some1 Text.isDigit

def trimmed (m : Match) (n : Nat) : Option String :=
  some (String.ofList (Text.trim (m.text n)))

def lowered (m : Match) (n : Nat) : List Char :=
  Text.lower (m.text n)

def numeralOf (m : Match) (n : Nat) : Except Fault Int :=
  match Text.numeral? (m.text n) with
  | some k => .ok k
  | none => .error .numeralTooLong

/-- A rule for a fixed phrase. -/
def literal (pattern : Pattern) (kind : CommandKind) : GrammarRule where
  pattern
  build _ _ := .ok (some { kind })

/-- A rule for a verb, an optional `all` and a search phrase as capture 2. -/
def searching (verbs : List String) (kind : CommandKind) : GrammarRule where
  pattern := lineOf [keywords verbs, blanks, allPattern, capture 2 line]
  build m _ := .ok (some { kind, search := trimmed m 2, allMatches := m.has 1 })

/-! ## Due dates by name -/

/-- The end of today, of tomorrow, or of the next weekday of a name. -/
def resolveDue (spec : List Char) (now : Moment) : Except Fault (Option Moment) :=
  let spec := Text.squeeze (Text.lower (Text.trim spec))
  if spec = "today".toList then .ok (some (.endOfDay now.day))
  else if spec = "tomorrow".toList then (now.day.plus 1).map fun d => some (.endOfDay d)
  else if "next ".toList.isPrefixOf spec then
    match weekdayNamed? (spec.drop 5) with
    | some target => (now.day.nextWeekday target true).map fun d => some (.endOfDay d)
    | none => .ok none
  else .ok none

/-! ## The rules -/

def subtaskRule : GrammarRule where
  pattern := lineOf [keyword "add", blanks, keyword "subtask", blanks, capture 1 phrase, blanks,
    keyword "to", blanks, capture 2 line]
  build m _ := .ok (some { kind := .subtask, subtaskText := trimmed m 1, parentSearch := trimmed m 2 })

def addToProjectRule : GrammarRule where
  pattern := lineOf [keyword "add", blanks, capture 1 phrase, blanks, keyword "to", blanks,
    capture 2 phrase, blanks, keyword "project"]
  build m _ := .ok (some { kind := .add, taskText := trimmed m 1, project := trimmed m 2 })

def addRule : GrammarRule where
  pattern := lineOf [keyword "add", blanks, capture 1 line]
  build m _ :=
    let (text, tag, priority) := splitMarkers (m.text 1)
    .ok <| if text.isEmpty then none
      else some { kind := .add, taskText := some (String.ofList text), tag := tag.map String.ofList, priority }

def tickSubtaskRule : GrammarRule where
  pattern := lineOf [keywords ["tick", "complete"], blanks, keyword "subtask", blanks, capture 1 line]
  build m _ := .ok (some { kind := .subtask, subtaskText := trimmed m 1 })

def archiveCompletedRule : GrammarRule where
  pattern := lineOf [keyword "archive", blanks, keyword "completed"]
  build _ _ :=
    .ok (some { kind := .archive, search := some "completed", allMatches := true, completedOnly := true })

def tagRule : GrammarRule where
  pattern := lineOf [keyword "tag", blanks, allPattern, capture 2 phrase, blanks, keyword "as", blanks,
    capture 3 word]
  build m _ := .ok <| some
    { kind := .tag, search := trimmed m 2, allMatches := m.has 1
      tag := some (String.ofList (lowered m 3)) }

def filterRule : GrammarRule where
  pattern := lineOf [keywords ["filter", "show"], opt (blanks ++ keyword "by"), blanks, capture 1 word,
    opt (blanks ++ keyword "tasks")]
  build m _ := .ok (some { kind := .filter, tag := some (String.ofList (lowered m 1)) })

/-- A priority word with a letter that is no ASCII letter is accepted but names no priority. -/
def priorityRule : GrammarRule where
  pattern := lineOf [keyword "priority", blanks, allPattern, capture 2 phrase, blanks,
    capture 3 (keywords ["high", "medium", "low"])]
  build m _ :=
    match Priority.ofName? (String.ofList (lowered m 3)) with
    | some p => .ok (some { kind := .priority, search := trimmed m 2, allMatches := m.has 1, priority := some p })
    | none => .error (.invalid [["priority"]])

def dueRule : GrammarRule where
  pattern := lineOf [keyword "due", blanks,
    capture 1 (anyOf [keyword "today", keyword "tomorrow", keyword "next" ++ blanks ++ weekdayKeyword]),
    blanks, opt (capture 2 (keyword "all" ++ blanks)), capture 3 line]
  build m now := do
    let spec := Text.squeeze (lowered m 1)
    return (← resolveDue spec now).map fun due =>
      { kind := .due, dueSpec := some (String.ofList spec), due := some due, search := trimmed m 3
        allMatches := m.has 2 }

def snoozeUnitOf (unit : List Char) : SnoozeUnit :=
  if "week".toList.isPrefixOf unit then .weeks
  else if "month".toList.isPrefixOf unit then .months
  else .days

def snoozeRule : GrammarRule where
  pattern := lineOf [keyword "snooze", blanks, allPattern, capture 2 phrase, blanks,
    capture 3 numeralPattern, blanks,
    capture 4 (anyOf [keyword "day" ++ opt (keyword "s"), keyword "week" ++ opt (keyword "s"),
      keyword "month" ++ opt (keyword "s")])]
  build m _ := do
    let amount ← numeralOf m 3
    return some
      { kind := .snooze, search := trimmed m 2, allMatches := m.has 1
        snoozeAmount := some amount, snoozeUnit := some (snoozeUnitOf (lowered m 4)) }

def repeatRule (word : String) (rhythm : Rhythm) : GrammarRule where
  pattern := lineOf [keyword "repeat", blanks, keyword word, blanks, capture 1 line]
  build m _ := .ok (some { kind := .repeat, search := trimmed m 1, recurrence := some { rhythm } })

/-- A weekday with a letter that is no ASCII letter is accepted but names no day. -/
def repeatWeeklyRule : GrammarRule where
  pattern := lineOf [keyword "repeat", blanks, keyword "weekly", blanks, keyword "on", blanks,
    capture 1 weekdayKeyword, blanks, capture 2 line]
  build m _ :=
    match weekdayNamed? (lowered m 1) with
    | some day => .ok <| some
        { kind := .repeat, search := trimmed m 2, recurrence := some { rhythm := .weekly, days := [day] } }
    | none => .error .unlistedName

def remindAbsoluteRule : GrammarRule where
  pattern := lineOf [keyword "remind", blanks, keyword "me", blanks, opt (keyword "about" ++ blanks),
    capture 1 phrase, blanks, capture 2 (keywords ["today", "tomorrow"]), blanks,
    capture 6 (capture 3 (upTo Text.isDigit 1 2) ++ opt (char ':' ++ capture 4 (upTo Text.isDigit 2 2)) ++
      blanks0 ++ opt (capture 5 (keywords ["am", "pm"])))]
  build m now := do
    let half := if m.has 5 then some (lowered m 5) else none
    match ← When.clockFromParts (Text.numeral (m.text 3)) (Text.numeral (m.text 4)) half with
    | none => return none
    | some clock =>
      let spec := lowered m 2
      let day ← if spec = "tomorrow".toList then now.day.plus 1 else .ok now.day
      let time := Text.lower (Text.trim (m.text 6))
      return some
        { kind := .remind, search := trimmed m 1, reminderTime := some (.on day clock)
          reminderSpec := some (String.ofList (spec ++ ' ' :: time)) }

def remindRelativeRule : GrammarRule where
  pattern := lineOf [keyword "remind", blanks, keyword "me", blanks, capture 1 numeralPattern, blanks,
    keyword "hour", opt (keyword "s"), blanks, keyword "before", blanks, capture 2 line]
  build m _ := do
    let hours ← numeralOf m 1
    return some
      { kind := .remind, search := trimmed m 2, reminderHoursBefore := some hours
        reminderSpec := some (Text.showInt hours ++ " hours before") }

def createProjectRule : GrammarRule where
  pattern := lineOf [keyword "create", blanks, keyword "project", blanks, capture 1 line]
  build m _ := .ok (some { kind := .project, projectName := trimmed m 1 })

def sortWords : List (String × String) :=
  [("priority", "priority"), ("due date", "dueDate"), ("created", "createdAt"),
    ("created date", "createdAt"), ("alphabetical", "alphabetical"), ("name", "alphabetical")]

def sortRule : GrammarRule where
  pattern := lineOf [keyword "sort", blanks, keyword "by", blanks,
    capture 1 (anyOf [keyword "priority", fixed ["due", "date"],
      keyword "created" ++ opt (blanks ++ keyword "date"), keyword "alphabetical", keyword "name"])]
  build m _ :=
    match sortWords.lookup (String.ofList (Text.squeeze (lowered m 1))) with
    | some criteria => .ok (some { kind := .sort, sortCriteria := some criteria })
    | none => .error .missingKey

def summarizeRule : GrammarRule where
  pattern := lineOf [keyword "summarize", blanks,
    capture 1 (anyOf [keyword "today", fixed ["this", "week"], keyword "tomorrow"])]
  build m _ :=
    let word := String.ofList (lowered m 1)
    match if word = "this week" then some Period.week else Period.ofName? word with
    | some period => .ok (some { kind := .summarize, period := some period })
    | none => .error (.invalid [["period"]])

def grammar : List GrammarRule :=
  [literal (lineOf [keywords ["help", "commands"]]) .help,
    literal (lineOf [anyOf [keyword "calendar", fixed ["view", "calendar"], fixed ["show", "calendar"],
      fixed ["toggle", "calendar"]]]) .calendar,
    literal (lineOf [fixed ["dark", "mode"]]) .dark,
    literal (lineOf [fixed ["light", "mode"]]) .light,
    literal (lineOf [fixed ["list", "projects"]]) .project,
    subtaskRule, addToProjectRule, addRule, tickSubtaskRule,
    searching ["tick", "complete"] .tick,
    searching ["delete", "remove"] .delete,
    archiveCompletedRule,
    searching ["archive"] .archive,
    tagRule, filterRule, priorityRule, dueRule, snoozeRule,
    repeatRule "daily" .daily, repeatWeeklyRule, repeatRule "monthly" .monthly,
    remindAbsoluteRule, remindRelativeRule, createProjectRule, sortRule, summarizeRule]

/-- What a rule makes of a line; none if it does not accept it. -/
def GrammarRule.apply (r : GrammarRule) (line : List Char) (now : Moment) : Except Fault (Option Command) :=
  match r.pattern.matchStart line with
  | some m => r.build m now
  | none => .ok none

def firstOf (line : List Char) (now : Moment) : List GrammarRule → Except Fault (Option Command)
  | [] => .ok none
  | r :: rs => do
    match ← r.apply line now with
    | some c => return some c
    | none => firstOf line now rs

/-- The command of a line; one that no rule accepts is of unknown kind. -/
def parse (text : List Char) (now : Moment) : Except Fault Command := do
  let line := Text.squeeze (Text.trim text)
  match ← firstOf line now grammar with
  | some c => return c
  | none => return { kind := .unknown, confidence := .zero, taskText := some (String.ofList line) }

end Agenda.Command
