import Agenda.Intent.Basic
import Agenda.Task.Basic
import Agenda.Pattern

/-! # The arguments of an intent

Once a label is known, patterns find its arguments in the line. A pattern that does not match
leaves its arguments out.
-/

namespace Agenda.Intent

open Pattern

/-- Words that are passed over with the blanks after them. -/
def skipping (ws : List String) : Pattern :=
  opt (keywords ws ++ blanks)

def hashWord : Pattern :=
  char '#' ++ capture 1 word

def newTask : Pattern :=
  keywords ["add", "create", "remember", "need to"] ++ blanks ++
    opt (keyword "a" ++ blanks ++ skipping ["new"] ++ keyword "task" ++ blanks ++ skipping ["to"]) ++
    skipping ["to"] ++ capture 1 phrase ++ opt (blanks ++ char '#' ++ word ++ some0 inLine) ++ ends

/-- What may follow the name of a task that is completed or deleted. -/
def taskTail : Pattern :=
  anyOf [keyword "as" ++ blanks ++ keywords ["done", "complete", "completed", "finished"],
    keyword "from" ++ blanks ++ skipping ["my"] ++ keywords ["list", "tasks"],
    keyword "task"]

def knownTask : Pattern :=
  anyOf [keyword "complete", keyword "mark", keyword "tick", keyword "finish" ++ opt (keyword "ed"),
    keyword "delete", keyword "remove", keyword "erase"] ++ blanks ++
    skipping ["off"] ++ skipping ["the"] ++ capture 1 phrase ++ opt (blanks ++ taskTail) ++ ends

def newTag : Pattern :=
  keywords ["tag", "category", "label"] ++ blanks ++ skipping ["of"] ++ skipping ["the"] ++
    capture 1 phrase ++ blanks ++ keywords ["to", "as"] ++ blanks ++ opt (char '#') ++ capture 2 word ++ ends

def priorityWords : List String :=
  ["high", "medium", "low", "urgent", "important", "normal"]

def priorityWord : Pattern :=
  edge ++ capture 1 (keywords priorityWords) ++ edge

def prioritizedTask : Pattern :=
  keywords ["make", "set", "mark"] ++ blanks ++ skipping ["the"] ++
    opt (keyword "priority" ++ blanks ++ keywords ["of", "for"] ++ blanks) ++ skipping ["the"] ++
    capture 1 phrase ++ blanks ++ opt (either (keyword "as" ++ blanks) (keyword "to" ++ blanks)) ++
    keywords priorityWords ++ edge

def shownTag : Pattern :=
  keywords ["show", "filter", "only", "tagged", "display"] ++ blanks ++ skipping ["me"] ++
    skipping ["my"] ++ skipping ["by"] ++ skipping ["only"] ++ opt (char '#') ++ capture 1 word ++
    opt (blanks ++ keyword "tasks")

/-- Words that are no tags. -/
def fillers : List String :=
  ["me", "my", "all", "the", "tasks", "only", "by", "show"]

/-- The plural of a tag with a colour of its own is that tag. -/
def singular (tag : String) : String :=
  let stem := String.ofList (tag.toList.dropLast)
  if tag.toList.getLast? = some 's' ∧ isNamedTag stem then stem else tag

def trimmed (m : Match) (n : Nat) : String :=
  String.ofList (Text.trim (m.text n))

def lowered (m : Match) (n : Nat) : String :=
  String.ofList (Text.lower (m.text n))

/-- The first word that may be a tag. -/
def filteredTag (text : List Char) : Option String :=
  (((shownTag.all text).map fun m => lowered m 1).find? (!fillers.contains ·)).map singular

def ofText (label : String) (text : List Char) : Intent :=
  let text := Text.trim text
  if label = "add_task" then
    { label
      text := some (match newTask.search text with
        | some m => trimmed m 1
        | none => String.ofList text)
      tag := (hashWord.search text).map fun m => lowered m 1 }
  else if label = "complete_task" ∨ label = "delete_task" then
    { label, text := (knownTask.search text).map fun m => trimmed m 1 }
  else if label = "change_tag" then
    match newTag.search text with
    | some m => { label, text := some (trimmed m 1), tag := some (lowered m 2) }
    | none => { label }
  else if label = "set_priority" then
    { label
      text := (prioritizedTask.search text).map fun m => trimmed m 1
      priority := (priorityWord.search text).bind fun m => Priority.ofWord? (m.text 1) }
  else if label = "filter_tasks" then { label, tag := filteredTag text }
  else { label }

end Agenda.Intent
