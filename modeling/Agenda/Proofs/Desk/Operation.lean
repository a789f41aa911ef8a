import Agenda.Desk.Remind
import Agenda.Desk.Submit
import Agenda.Proofs.Desk.Work

/-! # Operations

An operation edits the book once, and most operations then renew the completed recurring tasks of
the edited book. What the edit makes of the book, and the ways in which an operation can end, are
said here without its program.
-/

namespace Agenda

namespace Book

/-- A book with the next occurrences of its tasks. -/
def renewedBy (b : Book) (new : List Task) : Book :=
  if new.isEmpty then b else { b with version := b.version + 1, tasks := b.tasks ++ new }

theorem tasks_renewedBy (b : Book) (new : List Task) : (b.renewedBy new).tasks = b.tasks ++ new := by
  unfold renewedBy
  split
  · rename_i h
    rw [List.isEmpty_iff.mp h, List.append_nil]
  · rfl

end Book

inductive Operation where
  | submit (m : Means) (text : String) (now : Moment)
  | toggle (id : String) (now : Moment)
  | update (id : String) (fields : Entries) (now : Moment)
  | delete (id : String)
  | deleteAll (ids : List String)
  | completeAll (ids : List String) (now : Moment)
  | archiveAll (ids : List String) (now : Moment)
  | sweep (now : Moment)
  | remind (m : Means) (now : Moment) (tick : Double) (forced : Bool)

namespace Operation

def work : Operation → OnDesk Unit
  | submit m text now => do let _ ← Desk.submit m text now
  | toggle id now => do let _ ← Desk.toggle id now
  | update id fields now => do let _ ← Desk.update id fields now
  | delete id => Desk.delete id
  | deleteAll ids => do let _ ← Desk.deleteAll ids
  | completeAll ids now => do let _ ← Desk.completeAll ids now
  | archiveAll ids now => do let _ ← Desk.archiveAll ids now
  | sweep now => do let _ ← Desk.sweep now
  | remind m now tick forced => do let _ ← Desk.checkReminders m now tick forced

/-- When an operation renews completed tasks after its edit, if it does. -/
def renewsAt : Operation → Option Moment
  | submit _ _ now | toggle _ now | update _ _ now | completeAll _ now | archiveAll _ now | sweep now => some now
  | delete _ | deleteAll _ | remind _ _ _ _ => none

def Understood (m : Means) (text : String) (now : Moment) (d : Desk) (c : Command) : Prop :=
  ∃ c₀ route d₁ d₂, (Desk.resolve m text now).after d = (.ok (some c₀, route), d₁) ∧
    (Desk.tagged m c₀).after d₁ = (.ok c, d₂)

def Restatuses (ids : List String) (status : Status) (b b' : Book) : Prop :=
  (∃ t ∈ b.tasks, t.id ∈ ids ∧ t.status ≠ status) ∧
    b' = b.withTasks (b.tasks.map fun t => if t.id ∈ ids ∧ t.status ≠ status then t.withStatus status else t)

/-- The book that the edit of an operation makes, and the number of the next identity then. -/
def Makes (d : Desk) (b : Book) (next : Nat) : Operation → Prop
  | submit m text now => ∃ c e, Understood m text now d c ∧ e.book = some b ∧
      c.effect { book := d.book, preferences := Preferences.load d.storage, now } d.nextId = .ok (e, next)
  | toggle id _ => (∃ t, d.book.find id = .ok t) ∧ b = d.book.changed id Task.toggled ∧ next = d.nextId
  | update id fields now => ∃ t new, d.book.find id = .ok t ∧
      Desk.overwritten t fields id now d.nextId = .ok (new, next) ∧ b = d.book.changed id fun _ => new
  | delete id => (∃ t, d.book.find id = .ok t) ∧ b = d.book.without [id] ∧ next = d.nextId
  | deleteAll ids => b = d.book.without ids ∧ next = d.nextId
  | completeAll ids _ => Restatuses ids .completed d.book b ∧ next = d.nextId
  | archiveAll ids _ => Restatuses ids .archived d.book b ∧ next = d.nextId
  | sweep _ => False
  | remind _ now _ _ => (∃ fired, d.book.fireDue now = .ok (some b, fired)) ∧ next = d.nextId

/-- The desk after the edit of an operation. -/
inductive Edited (op : Operation) (d d' : Desk) : Prop where
  | kept (hBook : d'.book = d.book) (hStorage : d'.storage = d.storage) (hNext : d.nextId ≤ d'.nextId)
  | made (b : Book) (hMakes : op.Makes d b d'.nextId)
      (hBook : d'.book = { b with version := d.book.version + 1 })
      (hStorage : d'.storage = d'.book.save d.storage)

/-- How an operation ends. -/
inductive Ended (op : Operation) (d : Desk) : Except Fault Unit → Desk → Prop where
  | refused {f : Fault} {d' : Desk} (hQuiet : d.Quiet d') : Ended op d (.error f) d'
  | unrenewed {f : Fault} {d' : Desk} (now : Moment) (hNow : op.renewsAt = some now)
      (hEdited : op.Edited d d') (hSweep : Task.renewals d'.book.tasks now d'.nextId = .error f) :
      Ended op d (.error f) d'
  | edited {d₁ d' : Desk} (hEdited : op.Edited d d₁) (hQuiet : d₁.Quiet d') : Ended op d (.ok ()) d'
  | renewed {d₁ d' : Desk} (now : Moment) (new : List Task) (hNow : op.renewsAt = some now)
      (hEdited : op.Edited d d₁)
      (hSweep : Task.renewals d₁.book.tasks now d₁.nextId = .ok (new, d'.nextId))
      (hBook : d'.book = d₁.book.renewedBy new) : Ended op d (.ok ()) d'

/-- The desk that an operation leaves, whether it succeeds or fails. -/
def next (op : Operation) (d : Desk) : Desk :=
  (op.work.after d).2

def run : List Operation → Desk → Desk
  | [], d => d
  | op :: ops, d => run ops (op.next d)

/-- Noon on the first of June 2024. -/
def noon : Moment := ⟨63852840000000000, none, by decide⟩

def silent : Means where
  service := { generate := fun _ _ => .error .connectTimeout, classify := fun _ _ => .error .connectTimeout }
  serviceName := "silent"

end Operation

end Agenda
