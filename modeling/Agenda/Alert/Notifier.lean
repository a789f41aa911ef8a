import Agenda.Service.Transport

/-! # Delivering alerts

Alerts go to a log, or to a webhook if one is configured. A webhook is sent the title and the text
of an alert; whether it takes them makes no difference.
-/

namespace Agenda

inductive Notifier where
  | log
  | webhook (address : String)
deriving DecidableEq

namespace Notifier

/-- The webhook at an address; without an address, the log. -/
def ofAddress (address : String) : Notifier :=
  if address = "" then .log else .webhook address

def granted : Notifier → Bool
  | .log => true
  | .webhook address => address != ""

def request? (title text : String) : Notifier → Except Fault (Option Request)
  | .log => .ok none
  | .webhook address => do
    return some (← Request.make address none (.object [("title", .str title), ("body", .str text)]))

/-- Delivers an alert. No reply in time is as good as any reply. -/
def fire (n : Notifier) (transport : Transport) (title text : String) : Except Fault Unit := do
  match ← n.request? title text with
  | none => return ()
  | some r => match r.send transport with
    | .ok _ | .error .connectTimeout => return ()
    | .error f => .error f

end Notifier

end Agenda
