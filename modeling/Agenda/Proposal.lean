import Agenda.Window.Basic

/-! # Proposed times

A task without a time is given one in the coming week: at the hours that suit its first tag, on
the days that are worked on, at the first of these times that is free.
-/

namespace Agenda

structure WorkingHours where
  start : Int := 9
  stop : Int := 18
  /-- The weekdays that are worked on; none listed means all. -/
  days : List Int := []

namespace Proposal

/-- A full hour, given by any number. -/
def hour (n : Int) : Except Fault Clock :=
  match Clock.ofParts? n 0 with
  | some c => .ok c
  | none => .error (if Day.isPart n then .noSuchDate else .dateOverflow)

/-- The hours that suit a tag on a day. -/
def hours (w : WorkingHours) (tag : Option String) (d : Day) : Except Fault (List Clock) :=
  if tag = some "work" then do return [← hour (w.start + 1)]
  else if tag = some "errand" then .ok [.atHour 15]
  else if tag = some "fitness" then .ok [.atHour 7, .atHour 18]
  else if tag = some "social" then
    .ok [if d.weekday = 0 ∨ d.weekday = 6 then .atHour 12 else .atHour 19]
  else do return [← hour (w.start + 2)]

def firstTag (t : Task) : Option String :=
  t.tags.head?.getD (some "general")

def onDay (w : WorkingHours) (tag : Option String) (d : Day) : Except Fault (List Moment) :=
  if !w.days.isEmpty && !w.days.contains d.weekday then .ok []
  else do return (← hours w tag d).map (.on d)

/-- The proposed times of the week from `now` on, in order. -/
def candidates (w : WorkingHours) (t : Task) (now : Moment) : Except Fault (List Moment) := do
  return (← (List.range 7).mapM fun (n : Nat) => do
    onDay w (firstTag t) (← now.plusDays n).day).flatten

def firstFree (t : Task) (existing : List Task) : List Moment → Except Fault (Option Moment)
  | [] => .ok none
  | m :: ms => do
    match ← Window.conflict (t.movedTo m) existing defaultMinutes with
    | none => return some m
    | some _ => firstFree t existing ms

/-- The first free time, failing that the first time, failing that now. -/
def suggest (w : WorkingHours) (t : Task) (existing : List Task) (now : Moment) : Except Fault Moment := do
  let times ← candidates w t now
  match ← firstFree t existing times with
  | some m => return m
  | none => return times.head?.getD now

end Proposal

end Agenda
