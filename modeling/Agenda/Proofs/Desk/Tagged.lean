import Agenda.Desk.View
import Agenda.Proofs.Book.Saved
import Agenda.Proofs.Command.Tagging
import Agenda.Proofs.Desk.Independence
import Agenda.Proofs.Task.Listed
import Agenda.Proofs.Task.Stored
import Agenda.Proofs.Text.Lower

/-! # Tagging and listing agree

A task that is added with a tag is listed once that tag is asked for, and so is every other task that
carries it. On its way the tag goes through the marker, the new task, the filter, the stored
preferences and the list, and each of them leaves a word in lower case alone.
-/

namespace Agenda

open Text (lower wordChar)

theorem normalTags_lower {w : List Char} (hSome : w ≠ []) (hWord : ∀ c ∈ w, wordChar c = true) :
    normalTags [String.ofList (lower w)] = [String.ofList (lower w)] := by
  obtain ⟨hTag, hTrim⟩ := Command.proper_lower_of_word ⟨hWord, List.length_pos_of_ne_nil hSome⟩
  have hHash : '#' ∉ lower w := Text.hash_notMem_lowerFrom fun h => absurd (hWord '#' h) (by decide)
  have hStart : (lower w).dropWhile (· == '#') = lower w := by
    rw [List.dropWhile_eq_self_iff]
    intro hPos hHead
    exact hHash (eq_of_beq hHead ▸ List.getElem_mem hPos)
  have hNormal : normalTag (String.ofList (lower w)) = String.ofList (lower w) := by
    rw [normalTag, hTrim, String.toList_ofList, hStart, Text.lower_lower]
  simp [normalTags, hNormal, hTag]

namespace Desk

open OnDesk

variable {m : Means} {text x tag : String} {now now₁ now₂ : Moment} {d d₁ d₂ d' : Desk} {s s₁ s₂ : Submission}
  {c : Command} {p : Preferences} {e : Effect} {route : Route} {t : Task}

/-- The tasks that carry a tag, but for archived ones. -/
def carrying (d : Desk) (tag : String) : List Task :=
  d.book.tasks.filter fun t => t.status != .archived && t.tags.contains (some tag)

/-- The order of a list when none is asked for. -/
def order (d : Desk) : SortBy :=
  (SortBy.ofName? (Preferences.load d.storage).sortBy).getD .createdAt

/-! ## Adding a task -/

/-- A submission of a command that needs no tag is what the command concludes. -/
theorem conclude_of_submit (hParse : Command.parse text.toList now = .ok c) (hKnown : c.kind ≠ .unknown)
    (hTagged : ¬ c.Untagged) (h : (submit m text now).after d = (.ok s, d')) :
    (conclude c .rule (Preferences.load d.storage) now).after d = (.ok s, d') := by
  have hText : ¬ (Text.trim text.toList).isEmpty = true := by
    intro hBlank
    rw [submit_of_blank hBlank] at h
    cases h
  rw [submit_of_tagged hParse hKnown hText hTagged] at h
  exact h

theorem exists_newTask_tagged (hTitle : Command.Proper x) (hTag : tag ≠ "") (hNormal : normalTags [tag] = [tag])
    (now : Moment) (n : Nat) :
    ∃ t k, Command.newTask { kind := .add, taskText := some x, tag := some tag } now n = .ok (t, k) ∧ t.title = x ∧
      t.tags = [some tag] ∧ t.status = .pending := by
  obtain ⟨reminders, id, k, hNew⟩ := Command.exists_newTask (c := { kind := .add, taskText := some x, tag := some tag })
    (fun t ht => Option.some.inj ht ▸ hTitle) now n
  have hGiven : given (some tag) = some tag := by simp [given, hTag]
  refine ⟨_, k, hNew, rfl, ?_, rfl⟩
  simp [hGiven, hNormal]

theorem tasks_of_add (hParse : Command.parse text.toList now = .ok { kind := .add, taskText := some x, tag := some tag })
    (hTitle : Command.Proper x) (hTag : tag ≠ "") (hNormal : normalTags [tag] = [tag])
    (h : (submit m text now).after d = (.ok s, d')) :
    ∃ t back, d'.book.tasks = d.book.tasks ++ t :: back ∧ s.affected = [t.id] ∧ t.title = x ∧ t.tags = [some tag] ∧
      t.status = .pending := by
  have hTagged : ¬ Command.Untagged { kind := .add, taskText := some x, tag := some tag } := by
    simp [Command.Untagged, given, hTag]
  have hDone := conclude_of_submit hParse (by simp) hTagged h
  obtain ⟨t, k, back, hNew, hTasks, hAffected⟩ := added_of_conclude hDone rfl
  obtain ⟨_, _, hMade, hTask, hTags, hStatus⟩ := exists_newTask_tagged hTitle hTag hNormal now d.nextId
  cases hNew.symm.trans hMade
  exact ⟨t, back, hTasks, hAffected, hTask, hTags, hStatus⟩

/-! ## Asking for a tag -/

/-- A sweep adds tasks behind those that are there, and does not touch the preferences. -/
theorem grown_of_sweep {r : Except Fault Nat} (h : (sweep now).after d = (r, d')) :
    (∃ back, d'.book.tasks = d.book.tasks ++ back) ∧ Preferences.load d'.storage = Preferences.load d.storage := by
  have hLoad := aside_preferences.sweep now d
  rw [h] at hLoad
  refine ⟨?_, hLoad⟩
  rcases Operation.sweep_cases h with ⟨_, _, _, rfl⟩ | ⟨new, _, _, hBook⟩
  · exact ⟨[], (List.append_nil _).symm⟩
  · exact ⟨new, by rw [hBook, Book.tasks_renewedBy]⟩

/-- Preferences that a command makes are those that are loaded from then on. -/
theorem load_of_report (hKnown : e.preferences.Known) (hSame : Preferences.load d.storage = p)
    (h : (report c route p e).after d = (.ok s, d')) :
    Preferences.load d'.storage = e.preferences ∧ d'.book = d.book := by
  unfold report at h
  dsimp only at h
  split at h
  · cases h
    exact ⟨Preferences.load_saved hKnown d.storage, rfl⟩
  · rename_i hKept
    cases h
    exact ⟨hSame.trans (not_not.mp hKept).symm, rfl⟩

/-- A command that makes no book is followed by a sweep of the one that is there. -/
theorem after_apply_kept {k : Nat} {r : Except Fault Nat}
    (hEffect : c.effect { book := d.book, preferences := p, now } d.nextId = .ok (e, k)) (hBook : e.book = none)
    (hSweep : (sweep now).after { d with nextId := k } = (r, d')) : (apply c p now).after d = (r.map fun _ => e, d') := by
  unfold apply
  rw [OnDesk.after_get_bind, OnDesk.after_bind, OnDesk.after_fresh, hEffect]
  simp only [hBook]
  change (sweep now >>= fun _ => pure e).after { d with nextId := k } = _
  rw [OnDesk.after_bind, hSweep]
  cases r <;> rfl

theorem filtered_of_show (hParse : Command.parse text.toList now = .ok { kind := .filter, tag := some tag })
    (hAll : tag ≠ "all") (h : (submit m text now).after d = (.ok s, d')) :
    (∃ back, d'.book.tasks = d.book.tasks ++ back) ∧ (Preferences.load d'.storage).filterTag = some tag := by
  have hDone := conclude_of_submit hParse (by simp) (by simp [Command.Untagged]) h
  have hEffect : Command.effect { kind := .filter, tag := some tag }
      { book := d.book, preferences := Preferences.load d.storage, now } d.nextId = .ok
        ({ Command.say { book := d.book, preferences := Preferences.load d.storage, now }
            ("Showing tasks tagged " ++ Command.inQuotes tag) with
          preferences := { Preferences.load d.storage with filterTag := some tag } }, d.nextId) := by
    unfold Command.effect Command.filter
    dsimp only
    split
    · rename_i hTag
      cases hTag
    · rename_i hTag
      exact absurd (Option.some.inj hTag) hAll
    · rename_i hTag
      cases hTag
      rfl
  rcases hSweep : (sweep now).after { d with nextId := d.nextId } with ⟨r, d₁⟩
  unfold conclude at hDone
  rw [OnDesk.after_bind, after_apply_kept hEffect rfl hSweep] at hDone
  obtain ⟨hTasks, hLoad⟩ := grown_of_sweep hSweep
  cases r with
  | error f => cases hDone
  | ok n =>
    obtain ⟨hFilter, hBook⟩ := load_of_report (Preferences.known_load d.storage) hLoad hDone
    rw [hFilter, hBook]
    exact ⟨hTasks, rfl⟩

/-! ## The list -/

theorem after_list (d : Desk) : (list {} none).after d =
    (Task.listed d.book.tasks { tag := (Preferences.load d.storage).filterTag } d.order, d) := by
  rfl

theorem filter_admits (d : Desk) {w : List Char} : d.book.tasks.filter
    (TaskFilter.admits { tag := some (String.ofList (lower w)) }) = d.carrying (String.ofList (lower w)) := by
  unfold carrying
  congr 1
  funext t
  simp [TaskFilter.admits, Text.lower_lower]

/-! ## Adding, then asking -/

theorem spaced_add (x w : String) :
    Text.Spaced ["add".toList, x.toList, '#' :: w.toList] ("add " ++ x ++ " #" ++ w).toList := by
  have hSpace : ∀ b ∈ [' '], Text.blank b = true := List.forall_mem_singleton.mpr rfl
  refine ⟨[], "add".toList ++ ([' '] ++ (x.toList ++ ([' '] ++ '#' :: w.toList))), [], ?_, nofun, nofun, ?_⟩
  · simp [String.toList_append]
  · exact .cons (by simp) hSpace (.cons (by simp) hSpace (.last _))

theorem spaced_show (w : String) : Text.Spaced ["show".toList, w.toList] ("show " ++ w).toList := by
  have hSpace : ∀ b ∈ [' '], Text.blank b = true := List.forall_mem_singleton.mpr rfl
  refine ⟨[], "show".toList ++ ([' '] ++ w.toList), [], ?_, nofun, nofun, .cons (by simp) hSpace (.last _)⟩
  simp [String.toList_append]

/-- A task that is added with a tag is in the list of that tag, with every other task that carries it
and is not archived, each once; the list is refused only if its order looks at the first day of all. -/
theorem list_of_tag {w : String} (hTitle : Command.Title x.toList) (hSome : w.toList ≠ [])
    (hWord : ∀ c ∈ w.toList, wordChar c = true) (hAll : lower w.toList ≠ "all".toList)
    (hCalendar : lower w.toList ≠ "calendar".toList)
    (hAdd : (submit m ("add " ++ x ++ " #" ++ w) now₁).after d = (.ok s₁, d₁))
    (hShow : (submit m ("show " ++ w) now₂).after d₁ = (.ok s₂, d₂)) :
    ∃ t ∈ d₂.carrying (String.ofList (lower w.toList)),
      t.title = x ∧ s₁.affected = [t.id] ∧ (∃ back, d₁.book.tasks = d.book.tasks ++ t :: back) ∧
      ((∀ u ∈ d₂.carrying (String.ofList (lower w.toList)), u.Listable d₂.order) →
        ∃ ts, (list {} none).after d₂ = (.ok ts, d₂) ∧ ts.Perm (d₂.carrying (String.ofList (lower w.toList)))) ∧
      ((∃ u ∈ d₂.carrying (String.ofList (lower w.toList)), ¬ u.Listable d₂.order) →
        (list {} none).after d₂ = (.error .noSuchDate, d₂)) := by
  obtain ⟨hTag, _⟩ := Command.proper_lower_of_word ⟨hWord, List.length_pos_of_ne_nil hSome⟩
  have hProper : Command.Proper x := ⟨fun h => hTitle.phrase.some (by rw [h]; rfl), hTitle.phrase.trimmed⟩
  have hParse : Command.parse ("add " ++ x ++ " #" ++ w).toList now₁ =
      .ok { kind := .add, taskText := some x, tag := some (String.ofList (lower w.toList)) } := by
    have h := @Command.parse_add_marked now₁ _ _ _ _ (spaced_add x w) rfl hTitle hSome hWord
    rwa [String.ofList_toList] at h
  obtain ⟨t, back, hTasks, hAffected, hName, hTags, hStatus⟩ :=
    tasks_of_add hParse hProper hTag (normalTags_lower hSome hWord) hAdd
  obtain ⟨⟨later, hLater⟩, hFilter⟩ := filtered_of_show
    (Command.parse_show (spaced_show w) rfl hSome hWord hCalendar) (fun h => hAll (by rw [← h, String.toList_ofList]))
    hShow
  have hCarries : t ∈ d₂.carrying (String.ofList (lower w.toList)) := by
    refine List.mem_filter.mpr ⟨?_, by simp [hStatus, hTags]⟩
    rw [hLater, hTasks]
    simp
  have hList := after_list d₂
  rw [hFilter] at hList
  have hNeeds : Needs (∀ u ∈ d₂.carrying (String.ofList (lower w.toList)), u.Listable d₂.order)
      (Task.listed d₂.book.tasks { tag := some (String.ofList (lower w.toList)) } d₂.order) :=
    (Task.needs_listed _ _ _).congr (by simp [← filter_admits])
  refine ⟨t, hCarries, hName, hAffected, ⟨back, hTasks⟩, fun hListable => ?_, fun ⟨u, hu, hNot⟩ => ?_⟩
  · obtain ⟨ts, hListed⟩ := hNeeds.done hListable
    rw [hListed] at hList
    exact ⟨ts, hList, filter_admits d₂ ▸ Task.perm_of_listed hListed⟩
  · rw [hNeeds.undone fun hListable => hNot (hListable u hu)] at hList
    exact hList

open Operation (noon silent)

theorem title_milk : Command.Title "buy milk".toList where
  phrase := ⟨by decide, by decide, Text.squeezed_squeeze "buy milk".toList⟩
  noTo := by decide
  noPriority := by
    rintro _ ⟨⟩ ⟨_, hMark, _⟩
    cases hMark

/-- A house with two tasks, one of them archived. -/
def house : Desk where
  book := { tasks := [{ id := "shelf", title := "fix shelf", tags := [some "home"], createdAt := noon },
    { id := "lamp", title := "mend lamp", tags := [some "home"], status := .archived, createdAt := noon }] }

def stocked : Desk :=
  ((submit silent ("add " ++ "buy milk" ++ " #" ++ "Home") noon).after house).2

def homely : Desk :=
  ((submit silent ("show " ++ "Home") noon).after stocked).2

theorem list_of_home : ∃ s₁ s₂ ts,
    (submit silent ("add " ++ "buy milk" ++ " #" ++ "Home") noon).after house = (.ok s₁, stocked) ∧
      (submit silent ("show " ++ "Home") noon).after stocked = (.ok s₂, homely) ∧
      (list {} none).after homely = (.ok ts, homely) ∧ ts.Perm (homely.carrying "home") ∧
      (homely.carrying "home").map (·.title) = ["fix shelf", "buy milk"] := by
  have hAddDone : ((submit silent ("add " ++ "buy milk" ++ " #" ++ "Home") noon).after house).1.isOk = true := by
    decide +kernel
  have hShowDone : ((submit silent ("show " ++ "Home") noon).after stocked).1.isOk = true := by decide +kernel
  obtain ⟨s₁, hAdd⟩ := exists_ok hAddDone
  obtain ⟨s₂, hShow⟩ := exists_ok hShowDone
  have hOrder : homely.order = .createdAt := by decide +kernel
  have hStamped : ∀ u ∈ homely.carrying "home", dayTicks ≤ u.createdAt.ticks := by decide +kernel
  obtain ⟨_, _, _, _, _, hList, _⟩ :=
    list_of_tag title_milk (by decide) (List.all_eq_true.mp (by decide)) (by decide) (by decide) hAdd hShow
  obtain ⟨ts, hListed, hPerm⟩ := hList fun u hu =>
    ⟨fun _ _ => hStamped u hu, fun hDue => nomatch hOrder.symm.trans hDue⟩
  exact ⟨s₁, s₂, ts, hAdd, hShow, hListed, hPerm, by decide +kernel⟩

theorem inRange_zero : (0 : Int) ≤ 0 ∧ (0 : Int) < 315537897600000000 := by
  decide

/-- A task from the first day of all. -/
def chest : Task :=
  { id := "a", title := "Old chest", tags := [some "home"], createdAt := ⟨0, none, inRange_zero⟩ }

def attic : Desk where
  book := { tasks := [chest] }

/-- The tasks of the attic are in order, and both lines are carried out, but nothing can be listed. -/
theorem list_of_attic_fails : chest.Valid ∧ (∀ m ∈ chest.moments, m.offset = none) ∧ Command.Title "buy milk".toList ∧
    let d₁ := ((submit silent "add buy milk #home" noon).after attic).2
    let d₂ := ((submit silent "show home" noon).after d₁).2
    ((submit silent "add buy milk #home" noon).after attic).1.isOk = true ∧
      ((submit silent "show home" noon).after d₁).1.isOk = true ∧ ((list {} none).after d₂).1.isOk = false := by
  refine ⟨⟨by decide, by decide, by decide, nofun, nofun, fun _ h => nomatch h⟩, by decide, title_milk, ?_⟩
  decide +kernel

end Desk

end Agenda
