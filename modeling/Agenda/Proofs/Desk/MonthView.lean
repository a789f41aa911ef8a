import Agenda.Desk.View
import Agenda.Proofs.Desk.Work
import Agenda.Proofs.Summary
import Agenda.Proofs.Time.Grid

/-! # The month with its tasks

The month view has the days of the month in their places and, with each day, the tasks that are due on it
and not archived. A task due in the month is therefore in one cell, and nothing else is in any.
-/

namespace Agenda

/-- The task is due on the day and not archived. -/
structure Task.ShownOn (d : Day) (t : Task) : Prop where
  unarchived : t.status ≠ .archived
  due : ∃ m ∈ t.due, m.day = d

namespace Desk

variable {year month : Int} {tasks : List Task} {rows : List (List (Option DayCell))} {d : Day} {t : Task}

theorem shownOn_iff : (t.status != .archived && t.due.any (·.day == d)) = true ↔ t.ShownOn d := by
  rw [Bool.and_eq_true, bne_iff_ne, Option.any_eq_true]
  simp only [beq_iff_eq]
  exact ⟨fun h => ⟨h.1, h.2⟩, fun h => ⟨h.unarchived, h.due⟩⟩

instance (d : Day) (t : Task) : Decidable (t.ShownOn d) :=
  decidable_of_iff _ shownOn_iff

/-- The tasks of a cell are those shown on its day, the earlier due ones first and those due at one time
in the order of the book. -/
structure FilledFrom (tasks : List Task) (cell : DayCell) : Prop where
  order : Summary.InDueOrder (tasks.filter (·.ShownOn cell.day)) cell.tasks
  ties : ∀ m, cell.tasks.filter (·.due = some m) = (tasks.filter (·.ShownOn cell.day)).filter (·.due = some m)

/-- The days of the month in their places, each with its tasks, and every task of the month in one place. -/
structure MonthView (year month : Int) (tasks : List Task) (rows : List (List (Option DayCell))) : Prop where
  days : Day.ShowsMonth year month (rows.map fun row => row.map fun cell => cell.map (·.day))
  cells : ∀ cell, some cell ∈ rows.flatten → FilledFrom tasks cell
  once : ∀ t ∈ tasks, t.status ≠ .archived → ∀ m ∈ t.due, m.day.year = year → m.day.month = month →
    ∃ (p : Nat) (cell : DayCell), rows.flatten[p]? = some (some cell) ∧ cell.day = m.day ∧ t ∈ cell.tasks ∧
      ∀ (q : Nat) (other : DayCell), rows.flatten[q]? = some (some other) → t ∈ other.tasks → q = p

/-! ## Cells -/

theorem exists_dueOn (hLocal : ∀ t ∈ tasks, ∀ m ∈ t.due, m.isLocal = true) (d : Day) :
    ∃ cell, dueOn tasks d = .ok cell ∧ cell.day = d ∧ FilledFrom tasks cell := by
  have hShown : (tasks.filter fun t => t.status != .archived && t.due.any (·.day == d)) = tasks.filter (·.ShownOn d) := by
    refine List.filter_congr fun t _ => Bool.eq_iff_iff.mpr ?_
    rw [shownOn_iff, decide_eq_true_iff]
  have hDated : (tasks.filter (·.ShownOn d)).filter (·.due.isSome) = tasks.filter (·.ShownOn d) := by
    refine List.filter_eq_self.mpr fun t ht => ?_
    obtain ⟨m, hm, _⟩ := (of_decide_eq_true (List.mem_filter.mp ht).2).due
    rw [hm]
    rfl
  have hShownLocal : ∀ t ∈ tasks.filter (·.ShownOn d), ∀ m ∈ t.due, m.isLocal = true :=
    fun t ht => hLocal t (List.mem_of_mem_filter ht)
  obtain ⟨ts, hTasks, hOrder, hTies⟩ := Summary.exists_inDueOrder hShownLocal
  rw [hDated] at hOrder
  refine ⟨⟨d, ts⟩, ?_, rfl, hOrder, hTies⟩
  rw [dueOn, hShown]
  exact Attempt.bind_eq_ok.mpr ⟨ts, hTasks, rfl⟩

theorem FilledFrom.mem_iff {cell : DayCell} (h : FilledFrom tasks cell) :
    t ∈ cell.tasks ↔ t ∈ tasks ∧ t.ShownOn cell.day := by
  rw [h.order.perm.mem_iff, List.mem_filter, decide_eq_true_iff]

/-! ## The view -/

theorem exists_cells (hLocal : ∀ t ∈ tasks, ∀ m ∈ t.due, m.isLocal = true) (days : List (List (Option Day))) :
    ∃ rows, (days.mapM fun row => row.mapM fun cell => cell.mapM (dueOn tasks) : Except Fault _) = .ok rows ∧
      (rows.map fun row => row.map fun cell => cell.map (·.day)) = days ∧
      ∀ cell, some cell ∈ rows.flatten → FilledFrom tasks cell := by
  choose fill hFill hDay hFilled using exists_dueOn hLocal
  have hCell (cell : Option Day) : cell.mapM (dueOn tasks) = .ok (cell.map fill) := by
    cases cell with
    | none => rfl
    | some d => exact Attempt.map_eq_ok.mpr ⟨fill d, hFill d, rfl⟩
  refine ⟨days.map fun row => row.map fun cell => cell.map fill, ?_, ?_, ?_⟩
  · exact Attempt.mapM_of_ok fun row _ => Attempt.mapM_of_ok fun cell _ => hCell cell
  · have hDays : (fun d => (fill d).day) = id := funext hDay
    simp [Function.comp_def, hDays]
  · rintro cell hCell
    simp only [List.mem_flatten, List.mem_map] at hCell
    obtain ⟨_, ⟨row, _, rfl⟩, hCell⟩ := hCell
    obtain ⟨d, _, hCell⟩ := List.mem_map.mp hCell
    obtain ⟨d, rfl, rfl⟩ := Option.map_eq_some_iff.mp hCell
    exact hFilled d

theorem after_calendar (hMonth : 1 ≤ month ∧ month ≤ 12) (d : Desk) : (calendar year month).after d =
    (Day.grid year month >>= fun days => days.mapM fun row => row.mapM fun cell => cell.mapM (dueOn d.book.tasks), d) := by
  have hValid : ¬ (month < 1 ∨ 12 < month) := by omega
  unfold calendar
  rw [if_neg hValid]
  cases Day.grid year month <;> rfl

/-- The month view can be had of any month: with due dates that have no offset it shows the days of the month
and the tasks that are due on them, and leaves the desk as it is. -/
theorem calendar_shows (hYear : 1 ≤ year ∧ year ≤ 9999) (hMonth : 1 ≤ month ∧ month ≤ 12) (d : Desk)
    (hLocal : ∀ t ∈ d.book.tasks, ∀ m ∈ t.due, m.isLocal = true) :
    ∃ rows, (calendar year month).after d = (.ok rows, d) ∧ MonthView year month d.book.tasks rows := by
  obtain ⟨days, hGrid, hDays⟩ := Day.exists_grid hYear hMonth
  obtain ⟨rows, hRows, rfl, hFilled⟩ := exists_cells hLocal days
  have hPlaced (p : Nat) (day : Day) :
      (rows.map fun row => row.map fun cell => cell.map (·.day)).flatten[p]? = some (some day) ↔
        ∃ cell : DayCell, rows.flatten[p]? = some (some cell) ∧ cell.day = day := by
    rw [← List.map_flatten, List.getElem?_map, Option.map_eq_some_iff]
    constructor
    · rintro ⟨_ | cell, hCell, hDay⟩
      · cases hDay
      · exact ⟨cell, hCell, Option.some.inj hDay⟩
    · rintro ⟨cell, hCell, rfl⟩
      exact ⟨some cell, hCell, rfl⟩
  refine ⟨rows, ?_, hDays, hFilled, fun t ht hOpen m hm hYear hMonth => ?_⟩
  · rw [after_calendar hMonth, hGrid, Attempt.ok_bind, hRows]
  · obtain ⟨p, hp⟩ := hDays.exists_place ⟨hYear, hMonth⟩
    obtain ⟨cell, hCell, hDay⟩ := (hPlaced p m.day).mp hp
    have hShown : t.ShownOn m.day := ⟨hOpen, m, hm, rfl⟩
    refine ⟨p, cell, hCell, hDay, ?_, fun q other hOther hTask => ?_⟩
    · exact (hFilled cell (List.mem_of_getElem? hCell)).mem_iff.mpr ⟨ht, hDay ▸ hShown⟩
    · obtain ⟨_, -, m', hm', hSame⟩ := (hFilled other (List.mem_of_getElem? hOther)).mem_iff.mp hTask
      cases hm.symm.trans hm'
      exact hDays.place_unique ((hPlaced q m.day).mpr ⟨other, hOther, hSame.symm⟩) hp

/-- Rent and a call that are due at noon of the last day of March 2024, and a form due then that was archived. -/
def endOfMarch : Desk where
  book := { tasks :=
    [{ id := "a", title := "Pay rent", createdAt := .on ⟨738960, by decide⟩ .noon,
        due := some (.on ⟨738975, by decide⟩ .noon) },
      { id := "b", title := "Send form", status := .archived, createdAt := .on ⟨738960, by decide⟩ .noon,
        due := some (.on ⟨738975, by decide⟩ .noon) },
      { id := "c", title := "Call Ann", status := .completed, createdAt := .on ⟨738960, by decide⟩ .noon,
        due := some (.on ⟨738975, by decide⟩ .noon) }] }

theorem endOfMarch_shows : ∃ rows, (calendar 2024 3).after endOfMarch = (.ok rows, endOfMarch) ∧
    MonthView 2024 3 endOfMarch.book.tasks rows ∧ ∃ cell, some cell ∈ rows.flatten ∧ cell.day.number = 738975 ∧
      (cell.tasks.filter (·.due = some (.on ⟨738975, by decide⟩ .noon))).map (·.id) = ["a", "c"] := by
  have hLocal : ∀ t ∈ endOfMarch.book.tasks, ∀ m ∈ t.due, m.isLocal = true := by decide
  have hYear : (1 : Int) ≤ 2024 ∧ (2024 : Int) ≤ 9999 := by decide
  have hMonth : (1 : Int) ≤ 3 ∧ (3 : Int) ≤ 12 := by decide
  obtain ⟨rows, hRows, hView⟩ := calendar_shows hYear hMonth endOfMarch hLocal
  obtain ⟨p, cell, hCell, hDay, -⟩ := hView.once _ List.mem_cons_self (by decide) _ rfl (by decide) (by decide)
  have hMem := List.mem_of_getElem? hCell
  refine ⟨rows, hRows, hView, cell, hMem, hDay ▸ rfl, ?_⟩
  rw [(hView.cells cell hMem).ties, hDay]
  decide

end Desk

end Agenda
