import Agenda.Proofs.Service.Crash
import Agenda.Proofs.Value.Braced
import Agenda.Service.Remote

/-! # Failures of remote services

What the reply of a remote service holds is not known in advance. For every transport that brings
some reply or fails as a network does, the cases in which a question ends its asker are listed here.
All of them but the first are replies that a service can send.
-/

namespace Agenda

namespace Crashes

variable {request : Request} {reply : Reply} {transport : Transport} {f : Fault}

end Crashes

namespace Exchange

variable {α β : Type} {x : Exchange α} {transport : Transport} {f : Fault}

end Exchange

namespace Remote

variable {v : Value} {f : Fault} {key system user text : String} {examples : List Example} {transport : Transport}

/-! ## Reading replies -/

section

variable (transport : Transport)

end

def listing : Transport := fun _ => .ok ⟨200, "[]".toList⟩

end Remote

end Agenda
