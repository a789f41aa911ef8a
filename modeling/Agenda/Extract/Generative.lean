import Agenda.Service.Basic
import Agenda.Service.Repair
import Agenda.Extract.Markers
import Agenda.Extract.Result
import Agenda.When.Parse

/-! # Extraction by a language service

The service is asked for a task object. Its answer is used only where it can be trusted: tags and
priorities only if the writer marked some, titles that repeat an example of the prompt not at all.
A text that speaks about existing tasks is no task and is not sent.
-/

namespace Agenda.Extract

open Pattern

/-- Phrases of instructions about existing tasks. -/
def commandPhrases : List Pattern :=
  (["change", "modify", "update", "convert", "set", "edit", "delete", "remove", "switch"].map fun verb =>
    keyword verb ++ blanks ++ keyword "all") ++
  ["hashtag", "help", "settings", "mode"].map keyword

def looksLikeCommand (text : List Char) : Bool :=
  commandPhrases.any (·.found text)

/-- Titles of examples that a service may repeat. -/
def echoTitles : List String :=
  ["Submit project report", "call mom", "Go to the grocery store", "Buy groceries"]

def echoPattern (title : String) : Pattern :=
  exactly "\"title\"" ++ blanks0 ++ char ':' ++ blanks0 ++ char '"' ++ exactly title ++ char '"'

def isExampleEcho (raw text : List Char) : Bool :=
  echoTitles.any fun title =>
    !Text.occurs (Text.lower title.toList) (Text.lower text) && (echoPattern title).found raw

def systemPrompt : String :=
  "You are a STRICT task parser that extracts structured task data from natural language.\n\n" ++
  "Given a user's input, return a JSON object with EXACTLY these fields:\n\n" ++
  "\x7b\n" ++
  "  \"title\": \"task description (string)\",\n" ++
  "  \"due\": \"natural language time (string or null)\",\n" ++
  "  \"tags\": [\"tag1\", \"tag2\"],\n" ++
  "  \"priority\": \"high/medium/low/null\"\n" ++
  "\x7d\n\n" ++
  "CRITICAL RULES (THESE MUST BE FOLLOWED):\n" ++
  "1. Do NOT add ANY explanation or markdown formatting.\n" ++
  "2. \"title\" should extract the CORE task only, not the time/date references.\n" ++
  "3. \"due\" should contain time information if present.\n" ++
  "4. \"priority\" MUST be null UNLESS the text explicitly contains !high, !medium, !low or \"priority is\" format.\n" ++
  "5. \"tags\" MUST be an empty array ([]) UNLESS the input explicitly contains #tag or \"tag is\" format.\n" ++
  "6. If input contains \"delete tag\" or \"remove tag\" pattern, set tags to [].\n" ++
  "7. DO NOT infer tags from context - only extract tags marked with # or \"tag is\".\n" ++
  "8. Be intelligent about extracting the main task title - focus on verbs and objects.\n\n" ++
  "For example:\n" ++
  "Input: \"Buy groceries tomorrow\"\n" ++
  "Output: \x7b\"title\":\"Buy groceries\",\"due\":\"tomorrow\",\"tags\":[],\"priority\":null\x7d"

def userPrompt (text : String) : String :=
  "Now parse this input: \"" ++ text ++ "\""

/-- A title that is itself a reminder phrase; what to remember is capture 1. -/
def reminderTitle : Pattern :=
  starts ++ keywords ["reminder", "remind me"] ++ opt (blanks ++ word) ++ blanks ++
    keywords ["of", "about", "to"] ++ blanks ++ capture 1 (many false inLine 0 none) ++
    opt (blanks ++ keywords ["at", "on", "by", "tomorrow", "today", "next"] ++ edge ++ some0 inLine) ++ ends

def generatedTitle (title : String) : List Char :=
  let title := Text.trim title.toList
  let title := match reminderTitle.matchStart title with
    | some m => if (Text.trim (m.text 1)).isEmpty then title else Text.trim (m.text 1)
    | none => title
  Text.trim (Text.dropTail (",.;:!?".toList.contains ·) (stripMarkers title))

/-- The task that a generated one becomes for a text; none if no title is left. -/
def refine (g : GeneratedTask) (text : List Char) (now : Moment) : Except Fault (Option ParsedTask) := do
  let tags := if hasTagMarker text && !wantsTagsRemoved text then g.tags else []
  let priority := if hasPriorityMarker text then g.priority <|> explicitPriority text else none
  let title := generatedTitle g.title
  if title.isEmpty then return none
  let due ← match g.due with
    | some due => When.parse due.toList now false
    | none => .ok none
  let tags := (tags.filter fun t => !(Text.trim t.toList).isEmpty).map fun t =>
    String.ofList (Text.lower (t.toList.dropWhile (· == '#')))
  let reminder ← reminderFor text due
  return some { title := String.ofList (Text.capitalize title), due, tags, priority, reminder
                source := .generative }

/-- What the tier makes of an answer. -/
def readAnswer (raw text : List Char) (now : Moment) : Except Fault Outcome := do
  if isExampleEcho raw text then return .failed "example echo"
  match ← Repair.extractObject raw with
  | none => return .failed "no JSON object in output"
  | some es =>
    match GeneratedTask.decode (.object es) with
    | .bad errors => return .failed ("invalid task object: " ++ Text.showNat errors.length ++ " errors")
    | .ok g =>
      match ← refine g text now with
      | none => return .failed "empty title"
      | some task => return .ok task

def generative (service : Service) (text : List Char) (now : Moment) : Asking TierResult := do
  if looksLikeCommand text then return ⟨.generative, .notATask "command keywords present"⟩
  match ← service.ask systemPrompt (userPrompt (String.ofList text)) with
  | none | some .null => return ⟨.generative, .failed "generation unavailable"⟩
  | some (.str raw) => return ⟨.generative, ← (readAnswer raw.toList text now : Except Fault Outcome)⟩
  | some _ => throw .wrongKind

end Agenda.Extract
