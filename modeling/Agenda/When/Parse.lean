import Agenda.When.Rules

/-! # Reading a date out of a text

All rules are tried on the lower-cased text. Of overlapping hits the longest is kept, of equally
long ones the earliest. The kept hits together name one moment: a day alone means noon, a time
alone means its next occurrence.
-/

namespace Agenda.When

open Pattern

/-! ## Hits -/

def Rule.hits (r : Rule) (text : List Char) (now : Moment) : Except Fault (List Hit) := do
  return (← (r.pattern.all text).mapM fun m => r.resolve m now).filterMap id

def allHits (text : List Char) (now : Moment) : Except Fault (List Hit) := do
  return (← rules.mapM (·.hits text now)).flatten

/-- The order in which hits are considered: longest first, then earliest first. -/
def preferred (h k : Hit) : Bool :=
  k.length < h.length || (k.length == h.length && h.start ≤ k.start)

/-- Keeps each hit that overlaps none kept before. -/
def keepDisjoint (kept : List Hit) : List Hit → List Hit
  | [] => kept
  | h :: hs => keepDisjoint (if kept.all h.disjoint then kept ++ [h] else kept) hs

def select (hits : List Hit) : List Hit :=
  (keepDisjoint [] (hits.mergeSort preferred)).mergeSort fun h k => h.start ≤ k.start

def collect (text : List Char) (now : Moment) : Except Fault (List Hit) := do
  return select (← allHits text now)

/-! ## The moment that hits name -/

/-- The time of day that hits name: an exact time before a part of the day. A later part of the
day moves an exact time before noon into the afternoon. -/
def clockOf (hits : List Hit) : Option Clock :=
  let clocks := hits.filter (·.clock.isSome)
  let part := (clocks.find? (·.partOfDay)).bind (·.clock)
  match clocks.find? (!·.partOfDay) with
  | none => part
  | some exact => do
    let clock ← exact.clock
    match part with
    | some p =>
      if !exact.meridiem && clock.hour < 12 && 12 ≤ p.hour then
        Clock.ofParts? (clock.hour + 12) clock.minute
      else return clock
    | none => return clock

def combine (hits : List Hit) (now : Moment) : Except Fault (Option Moment) :=
  match hits.find? (·.namesDay), clockOf hits with
  | none, none => .ok none
  | some h, clock =>
    match h.moment, h.day with
    | some m, _ => match clock with
      | none => .ok (some m.toMinute)
      | some c => .ok (some (.on m.day c))
    | none, some d => .ok (some (.on d (clock.getD .noon)))
    | none, none => .ok none
  | none, some c => do
    let value := Moment.on now.day c
    return some (← if ← value.lt now then value.plusDays 1 else .ok value)

/-! ## Searching and parsing -/

/-- The moment a text names, and the stretches of the text that name it. -/
structure Found where
  value : Moment
  spans : List (Nat × Nat)

def search (text : List Char) (now : Moment) : Except Fault (Option Found) := do
  let hits ← collect (Text.lower text) now
  match ← combine hits now with
  | none => return none
  | some value => return some ⟨value, hits.map fun h => (h.start, h.stop)⟩

/-- The text with each span replaced by a space; `index` is where the text begins. -/
def cutFrom (index : Nat) (text : List Char) : List (Nat × Nat) → List Char
  | [] => text
  | (start, stop) :: spans =>
    text.take (start - index) ++ ' ' :: cutFrom stop (text.drop (stop - index)) spans

def cut (text : List Char) (spans : List (Nat × Nat)) : List Char :=
  cutFrom 0 text spans

/-- Words that may stand between date phrases without changing what they mean. -/
def fillers : List String :=
  ["at", "on", "by", "the", "of", "around", "before", "this", ","]

def tokenChar (c : Char) : Bool :=
  lowerLetter c || ('0' ≤ c && c ≤ '9')

/-- A word of ASCII letters and digits, or a comma, as capture 1. -/
def tokenPattern : Pattern :=
  capture 1 (either (some1 tokenChar) (char ','))

def fillerOnly (text : List Char) : Bool :=
  (tokenPattern.all text).all fun m => fillers.any (·.toList == m.text 1)

/-- The moment a phrase names. With `strict` the text holds nothing but the phrase and fillers. -/
def parse (text : List Char) (now : Moment) (strict : Bool) : Except Fault (Option Moment) := do
  let lowered := Text.trim (Text.lower text)
  if lowered.isEmpty then return none
  match ← search lowered now with
  | none => return none
  | some found =>
    if strict && !fillerOnly (cut lowered found.spans) then return none
    else return some found.value

def stripDates (text : List Char) (now : Moment) : Except Fault (List Char) := do
  match ← search text now with
  | none => return text
  | some found => return Text.trim (Text.squeezeWide (cut text found.spans))

end Agenda.When
