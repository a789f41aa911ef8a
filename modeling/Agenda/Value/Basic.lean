import Agenda.Number.Double
import Agenda.Time.Moment

/-! # Data in transit

A value is what a JSON text can hold, or a moment that was read from one. An object keeps its
keys in the order in which they were first written; `Entries.insert` is the only way to write.
-/

namespace Agenda

inductive Value where
  | null
  | bool (b : Bool)
  | int (n : Int)
  | num (x : Double)
  | str (s : String)
  | moment (m : Moment)
  | list (items : List Value)
  | object (entries : List (String × Value))

instance : Inhabited Value := ⟨.null⟩

/-- The entries of an object in the order of their keys' first appearance. -/
abbrev Entries := List (String × Value)

namespace Entries

def get? (es : Entries) (key : String) : Option Value :=
  es.lookup key

def has (es : Entries) (key : String) : Bool :=
  (es.get? key).isSome

/-- Writes a value: in place if the key is there, else at the end. -/
def insert (key : String) (v : Value) : Entries → Entries
  | [] => [(key, v)]
  | (k, w) :: es => if k = key then (k, v) :: es else (k, w) :: insert key v es

def erase (key : String) (es : Entries) : Entries :=
  es.filter fun e => e.1 != key

/-- Writes pairs one after the other; of a repeated key the last value counts. -/
def ofPairs (ps : List (String × Value)) : Entries :=
  ps.foldl (fun es p => es.insert p.1 p.2) []

/-- Writes all of the second over the first. -/
def merge (es others : Entries) : Entries :=
  others.foldl (fun es p => es.insert p.1 p.2) es

/-- The value under a key, null if there is none. -/
def at? (es : Entries) (key : String) : Value :=
  (es.get? key).getD .null

theorem get?_cons (k : String) (w : Value) (es : Entries) (key : String) :
    get? ((k, w) :: es) key = if key = k then some w else es.get? key := by
  by_cases h : key = k
  · simp [get?, h]
  · have : (key == k) = false := by simpa using h
    simp [get?, List.lookup_cons, h, this]

theorem get?_insert (key other : String) (v : Value) (es : Entries) :
    (es.insert key v).get? other = if other = key then some v else es.get? other := by
  induction es with
  | nil => simp [insert, get?_cons]
  | cons e es ih =>
    obtain ⟨k, w⟩ := e
    by_cases h : k = key
    · by_cases ho : other = key <;> simp [insert, get?_cons, h, ho]
    · by_cases ho : other = k
      · simp [insert, h, get?_cons, ho]
      · simp [insert, h, get?_cons, ho, ih]

end Entries

namespace Value

def ofStr? : Option String → Value
  | some s => .str s
  | none => .null

def ofMoment? : Option Moment → Value
  | some m => .moment m
  | none => .null

def isStr : Value → Bool
  | .str _ => true
  | _ => false

/-- Empty values, zero and null count as absent. -/
def truthy : Value → Bool
  | .null => false
  | .bool b => b
  | .int n => n != 0
  | .num x => !x.isZero
  | .str s => s != ""
  | .moment _ => true
  | .list xs => !xs.isEmpty
  | .object es => !es.isEmpty

/-- Equality of two numbers of either kind. A not-a-number is the same as any other, since values are
compared to find one among others. -/
def numberSame : Value → Value → Bool
  | .int m, .int n => m == n
  | .int m, .num y => match y with
    | .finite s f e => (m * twoTo 1074) == Double.units s f e
    | _ => false
  | .num .nan, .num .nan => true
  | .num x, .num y => x.same y
  | _, _ => false

/-- A truth value as the number it equals. -/
def asNumber : Value → Value
  | .bool b => .int (if b then 1 else 0)
  | v => v

mutual

/-- Equality of content: truth values equal 0 and 1, whole numbers equal floating ones, and
objects are compared without regard to order. -/
def same : Value → Value → Bool
  | .null, w => match w with
    | .null => true
    | _ => false
  | .bool b, w => numberSame (.int (if b then 1 else 0)) (asNumber w)
  | .int n, w => numberSame (.int n) (asNumber w)
  | .num x, w => match asNumber w with
    | .int n => numberSame (.int n) (.num x)
    | w => numberSame (.num x) w
  | .str s, w => match w with
    | .str t => s == t
    | _ => false
  | .moment m, w => match w with
    | .moment n => Moment.comparable m n && m.instant == n.instant
    | _ => false
  | .list xs, w => match w with
    | .list ys => sameItems xs ys
    | _ => false
  | .object es, w => match w with
    | .object fs => es.length == fs.length && sameEntries es fs
    | _ => false

def sameItems : List Value → List Value → Bool
  | [], [] => true
  | x :: xs, y :: ys => same x y && sameItems xs ys
  | _, _ => false

def sameEntries : List (String × Value) → List (String × Value) → Bool
  | [], _ => true
  | (k, v) :: es, fs =>
    (match Entries.get? fs k with
      | some w => same v w
      | none => false) && sameEntries es fs

end

end Value

end Agenda
