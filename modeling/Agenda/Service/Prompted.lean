import Agenda.Service.Basic
import Agenda.Value.Decode
import Agenda.Value.Read
import Agenda.Value.Print
import Agenda.Text.Quoted

/-! # Sorting by prompt

A service that only continues prompts can still sort texts: the prompt lists the labels and the
examples and asks for a JSON object with a label and a confidence. What stands before the first
brace of the answer and after the last is ignored.
-/

namespace Agenda

namespace Prompted

def systemPrompt : String :=
  "You are a text classifier. Answer ONLY with a JSON object " ++
  "\x7b\"label\": \"<one of the labels>\", \"confidence\": <0..1>\x7d."

def labels (examples : List Example) : List String :=
  ((examples.map (·.label)).mergeSort fun a b => a ≤ b).eraseReps

def userPrompt (text : String) (examples : List Example) : String :=
  "Labels: " ++ ", ".intercalate (labels examples) ++ "\nExamples:\n" ++
    "\n".intercalate (examples.map fun e => e.text ++ " => " ++ e.label) ++
    "\n\nClassify this text: " ++ text

/-- From the first opening brace up to the last closing one. -/
def braces? (cs : List Char) : Option (List Char) :=
  let inner := cs.dropWhile (· != '{')
  let outer := Text.dropTail (· != '}') inner
  if outer.isEmpty then none else some outer

def noObject (cs : List Char) : Fault :=
  .refused ("classifier returned no JSON object: " ++ String.ofList (Text.quoted (cs.take 80)))

/-- The label and the confidence that an answer gives. -/
def classification (es : Entries) : Except Fault Classification := do
  let label := ((es.get? "label").getD (.str "")).shown
  let confidence ← ((es.get? "confidence").getD (.num .zero)).toDouble
  (Classification.decode (.str (String.ofList (Text.trim label.toList))) (.num confidence)).toExcept

def readAnswer (answer : Value) : Except Fault Classification :=
  match answer with
  | .str s =>
    match braces? s.toList with
    | none => .error (noObject s.toList)
    | some cs =>
      match Value.ofJson cs with
      | .ok v => do classification (← v.entries)
      | .error f => .error f.fault
  | _ => .error .noSuchOperation

end Prompted

/-- The service that sorts by prompting. -/
def Service.prompted (generate : (system user : String) → Except Fault Value) : Service where
  generate := generate
  classify text examples := do
    Prompted.readAnswer (← generate Prompted.systemPrompt (Prompted.userPrompt text examples))

end Agenda
