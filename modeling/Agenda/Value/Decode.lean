import Agenda.Value.Basic
import Agenda.Time.Stored
import Agenda.Number.Written

/-! # Decoding fields

A decoder reads a value into a type or lists every rule that the value breaks, each with the
place where it does. Decoders are lenient: they take a number for a truth value or a numeral for
a number where nothing is lost.
-/

namespace Agenda

/-- A result, or the places of all broken rules in the order in which they were found. -/
inductive Decoded (α : Type) where
  | ok (result : α)
  | bad (errors : List Location)
deriving Repr

namespace Decoded

variable {α β : Type}

def map (f : α → β) : Decoded α → Decoded β
  | ok a => ok (f a)
  | bad e => bad e

/-- Applies a decoded function; the errors of both sides are kept. -/
def and : Decoded (α → β) → Decoded α → Decoded β
  | ok f, ok a => ok (f a)
  | ok _, bad e => bad e
  | bad e, ok _ => bad e
  | bad e, bad e' => bad (e ++ e')

/-- One broken rule, at the value itself. -/
def fail : Decoded α :=
  bad [[]]

/-- The errors moved below a step of the path. -/
def under (step : String) : Decoded α → Decoded α
  | ok a => ok a
  | bad e => bad (e.map (step :: ·))

/-- Keeps the values that satisfy a rule. -/
def check (p : α → Bool) : Decoded α → Decoded α
  | ok a => if p a then ok a else fail
  | bad e => bad e

/-- The results of a list of decoders, or all their errors. -/
def all : List (Decoded α) → Decoded (List α)
  | [] => ok []
  | x :: xs => ((ok List.cons).and x).and (all xs)

def toExcept : Decoded α → Except Fault α
  | ok a => .ok a
  | bad e => .error (.invalid e)

def toOption : Decoded α → Option α
  | ok a => some a
  | bad _ => none

end Decoded

namespace Value

/-! ## Plain values -/

def decodeStr : Value → Decoded String
  | .str s => .ok s
  | _ => .fail

def trueWords : List String := ["1", "on", "t", "true", "y", "yes"]
def falseWords : List String := ["0", "off", "f", "false", "n", "no"]

def decodeBool : Value → Decoded Bool
  | .bool b => .ok b
  | .int n => if n = 0 then .ok false else if n = 1 then .ok true else .fail
  | .num x => match x.toInt? with
    | some 0 => .ok false
    | some 1 => .ok true
    | _ => .fail
  | .str s =>
    if trueWords.contains (Written.asciiLower s) then .ok true
    else if falseWords.contains (Written.asciiLower s) then .ok false
    else .fail
  | _ => .fail

def decodeInt : Value → Decoded Int
  | .int n => .ok n
  | .bool b => .ok (if b then 1 else 0)
  | .num x => match x.toInt? with
    | some n => if -9223372036854775808 < n ∧ n ≤ 9223372036854775807 then .ok n else .fail
    | none => .fail
  | .str s => match Written.whole? s.toList with
    | some n => .ok n
    | none => .fail
  | _ => .fail

def decodeNum : Value → Decoded Double
  | .num x => .ok x
  | .int n => if (Double.ofInt n).isFinite then .ok (.ofInt n) else .fail
  | .bool b => .ok (.ofInt (if b then 1 else 0))
  | .str s => match Written.fractional? s.toList with
    | some x => .ok x
    | none => .fail
  | _ => .fail

/-- A confidence lies between 0 and 1. -/
def decodeConfidence (v : Value) : Decoded Double :=
  (decodeNum v).check fun x => Double.zero.le x && x.le (.ofNat 1)

def decodeMoment : Value → Decoded Moment
  | .moment m => .ok m
  | .str s => match Moment.ofStored? s.toList with
    | some m => .ok m
    | none => .fail
  | .int n => match Moment.ofCount? n with
    | some m => .ok m
    | none => .fail
  | .num x => match Moment.ofFraction? x with
    | some m => .ok m
    | none => .fail
  | _ => .fail

/-- One of a fixed set of names. -/
def decodeName {α : Type} (ofName? : String → Option α) : Value → Decoded α
  | .str s => match ofName? s with
    | some a => .ok a
    | none => .fail
  | _ => .fail

/-! ## Compound values -/

def decodeOption {α : Type} (decode : Value → Decoded α) : Value → Decoded (Option α)
  | .null => .ok none
  | v => (decode v).map some

def decodeList {α : Type} (decode : Value → Decoded α) : Value → Decoded (List α)
  | .list vs => .all (vs.mapIdx fun i v => (decode v).under (toString i))
  | _ => .fail

/-- A field that has to be there. -/
def required {α : Type} (es : Entries) (key : String) (decode : Value → Decoded α) : Decoded α :=
  match es.get? key with
  | some v => (decode v).under key
  | none => .bad [[key]]

/-- A field that may be left out. -/
def withDefault {α : Type} (es : Entries) (key : String) (default : α) (decode : Value → Decoded α) :
    Decoded α :=
  match es.get? key with
  | some v => (decode v).under key
  | none => .ok default

def decodeEntries {α : Type} (decode : Entries → Decoded α) : Value → Decoded α
  | .object es => decode es
  | _ => .fail

/-! ## Reaching into values

Data from a service is taken apart step by step. A step into a value that has no such part is a
fault that says why: a key or an item is missing, or the value is of the wrong kind.
-/

def under (key : String) : Value → Except Fault Value
  | .object es => match Entries.get? es key with
    | some v => .ok v
    | none => .error .missingKey
  | _ => .error .wrongKind

/-- The first item of a list or the first character of a text. -/
def first : Value → Except Fault Value
  | .list (v :: _) => .ok v
  | .list [] => .error .missingItem
  | .str s => match s.toList with
    | c :: _ => .ok (.str (String.ofList [c]))
    | [] => .error .missingItem
  | .object _ => .error .missingKey
  | _ => .error .wrongKind

/-- The entries of an object; nothing else has any. -/
def entries : Value → Except Fault Entries
  | .object es => .ok es
  | _ => .error .noSuchOperation

/-- A number, or the number that a text holds. -/
def toDouble : Value → Except Fault Double
  | .num x => .ok x
  | .int n => if (Double.ofInt n).isFinite then .ok (.ofInt n) else .error .numberOverflow
  | .bool b => .ok (.ofInt (if b then 1 else 0))
  | .str s => match Written.loose? s.toList with
    | some x => .ok x
    | none => .error .noSuchNumber
  | _ => .error .wrongKind

end Value

end Agenda
