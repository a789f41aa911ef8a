import Agenda.Service.Prompted
import Agenda.Service.Transport

/-! # Remote services

Three kinds of services reached over the network. A question to one of them is a request, which
may be one that cannot be sent, and a way to read the reply. One kind sorts texts by itself, the
others by prompt.
-/

namespace Agenda

/-- A question to a remote service: what is sent, and what the reply means. -/
structure Exchange (α : Type) where
  request : Except Fault Request
  read : Value → Except Fault α

namespace Exchange

variable {α β : Type}

def outcome (x : Exchange α) (transport : Transport) : Except Fault α := do
  x.read (← (← (← x.request).send transport).read)

def andThen (x : Exchange α) (f : α → Except Fault β) : Exchange β where
  request := x.request
  read v := do f (← x.read v)

end Exchange

inductive Remote where
  | cohere (key baseUrl generateModel classifyModel : String)
  | openAi (key model baseUrl : String)
  | ollama (model baseUrl : String)
deriving DecidableEq

namespace Remote

open Value

def message (role content : String) : Value :=
  .object [("role", .str role), ("content", .str content)]

def messages (system user : String) : Value :=
  .list [message "system" system, message "user" user]

def bearer (key : String) : Option String :=
  some ("Bearer " ++ key)

/-- One fifth: answers vary little. -/
def temperature : Value :=
  .num (.ofQuotient false 1 5)

/-- The first item of a list under a key; an absent or empty list is refused. -/
def firstOf (key : String) (v : Value) : Except Fault Value := do
  let items := Entries.at? (← v.entries) key
  if items.truthy then items.first
  else .error (.refused ("Cohere response has no " ++ key))

def generate (r : Remote) (system user : String) : Exchange Value :=
  match r with
  | .cohere key baseUrl model _ =>
    { request := Request.make (baseUrl ++ "/generate") (bearer key) <|
        .object [("model", .str model), ("prompt", .str (system ++ "\n\n" ++ user)),
          ("max_tokens", .int 500), ("temperature", temperature),
          ("stop_sequences", .list [.str "\n\n"]), ("return_likelihoods", .str "NONE")]
      read := fun v => do (← firstOf "generations" v).under "text" }
  | .openAi key model baseUrl =>
    { request := Request.make (baseUrl ++ "/chat/completions") (bearer key) <|
        .object [("model", .str model), ("messages", messages system user),
          ("temperature", temperature), ("max_tokens", .int 500)]
      read := fun v => do (← (← (← v.under "choices").first).under "message").under "content" }
  | .ollama model baseUrl =>
    { request := Request.make (baseUrl ++ "/api/chat") none <|
        .object [("model", .str model), ("stream", .bool false), ("format", .str "json"),
          ("messages", messages system user), ("options", .object [("temperature", temperature)])]
      read := fun v => do (← v.under "message").under "content" }

def exampleData (e : Example) : Value :=
  .object [("text", .str e.text), ("label", .str e.label)]

/-- The label and the confidence of a prediction. -/
def prediction (v : Value) : Except Fault Classification := do
  let label ← v.under "prediction"
  let confidence ← ((Entries.get? (← v.entries) "confidence").getD (.num .zero)).toDouble
  (Classification.decode label (.num confidence)).toExcept

def classify (r : Remote) (text : String) (examples : List Example) : Exchange Classification :=
  match r with
  | .cohere key baseUrl _ model =>
    { request := Request.make (baseUrl ++ "/classify") (bearer key) <|
        .object [("model", .str model), ("inputs", .list [.str text]),
          ("examples", .list (examples.map exampleData))]
      read := fun v => do prediction (← firstOf "classifications" v) }
  | _ => (r.generate Prompted.systemPrompt (Prompted.userPrompt text examples)).andThen Prompted.readAnswer

/-- The service that sends each request over `transport`. -/
def service (r : Remote) (transport : Transport) : Service where
  generate system user := (r.generate system user).outcome transport
  classify text examples := (r.classify text examples).outcome transport

end Remote

end Agenda
