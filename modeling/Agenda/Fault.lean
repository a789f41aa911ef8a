/-! # What can go wrong

The causes for which an operation gives no result. Each names what was asked for and could not be
done; the wording for people is chosen where a message is shown.
-/

namespace Agenda

/-- Where in a piece of data a field lies, outermost step first. -/
abbrev Location := List String

inductive Fault where
  /-- A date or a span of time leaves the supported range. -/
  | dateOverflow
  /-- Parts that no date or time of day has, or a year outside 1 to 9999. -/
  | noSuchDate
  /-- A month outside 1 to 12. -/
  | noSuchMonth
  /-- An instant whose year no clock can hold. -/
  | beyondClock
  /-- A local time is compared with a time that carries an offset. -/
  | zoneMismatch
  /-- A task without start or due date is asked for its window. -/
  | unscheduled
  /-- A numeral has more digits than are read. -/
  | numeralTooLong
  /-- A number is too large for floating point. -/
  | numberOverflow
  /-- A not-a-number or an infinity where a finite number is needed. -/
  | notFinite
  /-- A text where a number is needed. -/
  | noSuchNumber
  /-- A word that the grammar accepts is missing from a list of names. -/
  | unlistedName
  /-- A word that the grammar accepts is missing from a table, or an object lacks a key. -/
  | missingKey
  /-- A list is too short. -/
  | missingItem
  /-- A value of the wrong kind. -/
  | wrongKind
  /-- An operation that values of this kind do not have. -/
  | noSuchOperation
  /-- Data with fields that break their rules; one entry per broken rule. -/
  | invalid (errors : List Location)
  | unknownTask (id : String)
  | invalidCommand (reason : String)
  /-- A value is refused, with the reason. -/
  | refused (reason : String)
  /-- A text is not JSON. -/
  | notJson
  /-- Bytes that are no text. -/
  | noText
  /-- A text that has to be ASCII is not. -/
  | notAscii
  /-- A text is no address. -/
  | noAddress
  /-- An address without a scheme was asked and answered. -/
  | noScheme
  /-- A service answered with a status that reports failure. -/
  | badStatus
  /-- A service did not answer in time. -/
  | connectTimeout
  /-- The configuration does not allow a service to be used, or a service crashed. -/
  | broken (reason : String)
deriving Repr, DecidableEq

namespace Fault

def unknownTaskMessage (quotedId : String) : String :=
  "task " ++ quotedId ++ " not found"

/-- The faults that a call to a remote service may end in without ending the caller. -/
def isRemote : Fault → Bool
  | noSuchDate | noSuchMonth | zoneMismatch | unscheduled | numeralTooLong | notFinite
  | noSuchNumber | unlistedName | missingKey | missingItem | wrongKind | invalid _ | refused _
  | notJson | noText | notAscii | noScheme | badStatus | connectTimeout => true
  | dateOverflow | beyondClock | numberOverflow | noSuchOperation | unknownTask _
  | invalidCommand _ | noAddress | broken _ => false

end Fault

end Agenda
