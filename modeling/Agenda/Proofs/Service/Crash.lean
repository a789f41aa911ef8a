import Agenda.Proofs.Service.Repaired
import Agenda.Service.Client
import Agenda.Value.Decode

/-! # Failures that end the asker

A question asked of a service has no answer if it fails in one of the ways in which a remote
service may fail. In any other way the failure ends the asker as well. Steps into a value of the
wrong shape are nearly all of the first kind.
-/

namespace Agenda

variable {α β : Type}

namespace Value

variable {v w : Value} {es : Entries} {key : String}

theorem under_eq_ok : v.under key = .ok w ↔ ∃ es, v = .object es ∧ Entries.get? es key = some w := by
  cases v with
  | object es => cases h : Entries.get? es key <;> simp [under, h]
  | _ => simp [under]

end Value

namespace Crashes

variable {x : Except Fault α} {g : α → Except Fault β} {f : Fault} {v : Value}

end Crashes

/-! ## Questions -/

namespace Asking

variable {answer : Except Fault α} {f : Fault}

theorem attempt_remote (hRemote : f.isRemote = true) :
    (attempt (.error f) : Asking (Option α)) = (do modify (· + 1); return none) := by
  simp only [attempt, hRemote, if_true]

theorem attempt_crash (hCrash : f.isRemote = false) :
    (attempt (.error f) : Asking (Option α)) = (do modify (· + 1); throw f) := by
  simp only [attempt, hCrash, Bool.false_eq_true, if_false]

end Asking

namespace Service

variable {s : Service} {system user text : String} {examples : List Example} {f : Fault}

end Service

/-! ## Answers without an object -/

/-- A list or an object that holds an opening brace and no closing one. -/
def Value.opened : Value → Bool
  | .list items => items.any ((Value.str "\x7b").same ·) && !items.any ((Value.str "\x7d").same ·)
  | .object es => Entries.has es "\x7b" && !Entries.has es "\x7d"
  | _ => false

end Agenda
