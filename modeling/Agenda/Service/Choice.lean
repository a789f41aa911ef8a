import Agenda.Service.Remote
import Agenda.Text.Case
import Agenda.Text.Quoted

/-! # Choosing a service

A service is chosen by name and configured by settings, both trimmed. A remote service that needs
a key is not available without one.
-/

namespace Agenda

/-- Named settings; a setting may be absent. -/
abbrev Settings := String → Option String

inductive Provider where
  | remote (r : Remote)
  | keyword
deriving DecidableEq

namespace Provider

/-- A trimmed setting with a default. -/
def setting (settings : Settings) (name default : String) : String :=
  String.ofList (Text.trim ((settings name).getD default).toList)

/-- A setting that must not be blank. -/
def required (settings : Settings) (name : String) : Except Fault String :=
  let value := setting settings name ""
  if value = "" then .error (.broken (name ++ " is missing")) else .ok value

def cohere (settings : Settings) : Except Fault Provider := do
  let key ← required settings "COHERE_API_KEY"
  return .remote (.cohere key (setting settings "COHERE_BASE_URL" "https://api.cohere.ai/v1")
    (setting settings "COHERE_GENERATE_MODEL" "command-light-nightly")
    (setting settings "COHERE_CLASSIFY_MODEL" "embed-english-v3.0"))

def openAi (settings : Settings) : Except Fault Provider := do
  let key ← required settings "OPENAI_API_KEY"
  return .remote (.openAi key (setting settings "OPENAI_MODEL" "gpt-4o-mini")
    (setting settings "OPENAI_BASE_URL" "https://api.openai.com/v1"))

def ollama (settings : Settings) : Provider :=
  .remote (.ollama (setting settings "OLLAMA_MODEL" "llama3.1")
    (setting settings "OLLAMA_BASE_URL" "http://localhost:11434"))

/-- The name in use: the one given unless it is empty, then the one set, then the keyword service. -/
def chosenName (name : Option String) (settings : Settings) : List Char :=
  let name := match name with
    | none | some "" => (settings "LLM_PROVIDER").getD "mock"
    | some name => name
  Text.lower (Text.trim name.toList)

def choose (name : Option String) (settings : Settings) : Except Fault Provider :=
  let name := chosenName name settings
  if name = "cohere".toList then cohere settings
  else if name = "openai".toList then openAi settings
  else if name = "ollama".toList then .ok (ollama settings)
  else if name = "mock".toList then .ok .keyword
  else .error (.refused ("Unknown LLM_PROVIDER: " ++ String.ofList (Text.quoted name)))

end Provider

end Agenda
