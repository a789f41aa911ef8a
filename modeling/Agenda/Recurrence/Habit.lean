import Agenda.Task.Basic
import Agenda.Pattern

/-! # Habits

Tasks that keep being created under one title, but for numbers and names of months and days, at
about daily, weekly or monthly gaps are a habit. Its latest task is suggested for recurrence.
-/

namespace Agenda

structure Habit where
  task : Task
  rhythm : Rhythm

namespace Habit

open Pattern

def exactWord (ws : List String) : Pattern :=
  edge ++ anyOf (ws.map exactly) ++ edge

def monthName : Pattern :=
  exactWord ["jan", "feb", "mar", "apr", "may", "jun", "jul", "aug", "sep", "oct", "nov", "dec",
    "january", "february", "march", "april", "june", "july", "august", "september", "october",
    "november", "december"]

def dayName : Pattern :=
  exactWord ["monday", "tuesday", "wednesday", "thursday", "friday", "saturday", "sunday", "mon", "tue",
    "wed", "thu", "fri", "sat", "sun"]

/-- A title without what changes from one occurrence to the next. -/
def masked (title : String) : List Char :=
  let cs := Text.lower title.toList
  let cs := (some1 Text.isDigit).replace (fun _ => ['X']) cs
  let cs := monthName.replace (fun _ => "MONTH".toList) cs
  let cs := dayName.replace (fun _ => "DAY".toList) cs
  Text.trim cs

/-- Adds a task to the group of its key, or opens one. -/
def addTo (key : List Char) (t : Task) : List (List Char × List Task) → List (List Char × List Task)
  | [] => [(key, [t])]
  | (k, ts) :: groups => if k = key then (k, ts ++ [t]) :: groups else (k, ts) :: addTo key t groups

/-- The tasks without a recurrence by masked title, in order of appearance. -/
def groups (tasks : List Task) : List (List Task) :=
  ((tasks.filter (·.recurrence.isNone)).foldl (fun gs t => addTo (masked t.title) t gs) []).map (·.2)

def gaps : List Moment → List Int
  | a :: b :: ms => (b.instant - a.instant) :: gaps (b :: ms)
  | _ => []

/-- All gaps lie in a band, given in half days. -/
def within (gaps : List Int) (low high : Int) : Bool :=
  gaps.all fun g => low * (dayTicks / 2) ≤ g && g ≤ high * (dayTicks / 2)

/-- The rhythm of some gaps. Two tasks are too few to call them daily. -/
def rhythmOf (gaps : List Int) : Option Rhythm :=
  if 2 ≤ gaps.length && within gaps 1 4 then some .daily
  else if within gaps 12 16 then some .weekly
  else if within gaps 56 64 then some .monthly
  else none

def ofGroup (group : List Task) : Except Fault (Option Habit) := do
  if group.length < 2 then return none
  let group ← Moment.sortBy (·.createdAt) group
  return do
    let rhythm ← rhythmOf (gaps (group.map (·.createdAt)))
    let latest ← group.getLast?
    return ⟨latest, rhythm⟩

/-- The habits among at least five tasks. -/
def all (tasks : List Task) : Except Fault (List Habit) := do
  if tasks.length < 5 then return []
  return (← (groups tasks).mapM ofGroup).filterMap id

end Habit

end Agenda
