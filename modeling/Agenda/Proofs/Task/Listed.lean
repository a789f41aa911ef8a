import Agenda.Proofs.Attempt
import Agenda.Proofs.Number.Nearest
import Agenda.Proofs.Time.Moment
import Agenda.Task.Order
import Mathlib.Data.Char
import Mathlib.Data.List.Lex
import Mathlib.Data.Prod.Lex

/-! # What is listed

Putting tasks in order neither drops nor repeats one. The order looks at moments by their stamps, so
it is refused if a moment that it looks at has none; that is so on the first day of all only. Where the
stamps compare like the moments, which they do for centuries around 1970, the list has the tasks that
are done behind the others, each group in the order of the criterion, and tied tasks in their old order.
-/

namespace Agenda

open Attempt

/-! ## Work that needs stamps -/

section Needs

variable {α β : Type} {p q : Prop} {x : Except Fault α} {f : α → Except Fault β}

/-- The work is done if the condition holds; if not, there is no such date. -/
structure Needs (p : Prop) (x : Except Fault α) : Prop where
  done : p → ∃ a, x = .ok a
  undone : ¬ p → x = .error .noSuchDate

theorem needs_ok (a : α) : Needs True (.ok a) :=
  ⟨fun _ => ⟨a, rfl⟩, fun h => absurd trivial h⟩

theorem Needs.congr (h : Needs p x) (hSame : p ↔ q) : Needs q x :=
  ⟨fun hq => h.done (hSame.mpr hq), fun hq => h.undone fun hp => hq (hSame.mp hp)⟩

theorem Needs.bind (hx : Needs p x) (hf : ∀ a, Needs q (f a)) : Needs (p ∧ q) (x >>= f) := by
  by_cases hp : p
  · obtain ⟨a, rfl⟩ := hx.done hp
    exact ⟨fun h => (hf a).done h.2, fun h => (hf a).undone fun hq => h ⟨hp, hq⟩⟩
  · obtain rfl := hx.undone hp
    exact ⟨fun h => absurd h.1 hp, fun _ => rfl⟩

theorem Needs.map {g : α → β} (hx : Needs p x) : Needs p (x >>= fun a => pure (g a)) :=
  (hx.bind fun a => needs_ok (g a)).congr (iff_of_eq (and_true p))

theorem needs_mapM {p : α → Prop} {xs : List α} (h : ∀ a ∈ xs, Needs (p a) (f a)) :
    Needs (∀ a ∈ xs, p a) (xs.mapM f) := by
  induction xs with
  | nil => exact (needs_ok []).congr (by simp)
  | cons a xs ih =>
    obtain ⟨ha, hxs⟩ := List.forall_mem_cons.mp h
    rw [List.mapM_cons]
    exact (ha.bind fun _ => (ih hxs).map).congr List.forall_mem_cons.symm

end Needs

/-! ## Stamps -/

/-- The moment has a stamp. -/
def Moment.Stamped (m : Moment) : Prop :=
  m.offset = none → dayTicks ≤ m.ticks

theorem Moment.needs_stamp (m : Moment) : Needs m.Stamped m.stamp := by
  unfold stamp Stamped
  split
  · rename_i hOffset
    exact (needs_ok _).congr (by simp [hOffset])
  · rename_i hOffset
    split <;> rename_i hFirst
    · exact ⟨fun h => absurd (h hOffset) (by omega), fun _ => rfl⟩
    · exact (needs_ok _).congr (by simp [hOffset]; omega)

/-- The stamps of these moments compare like the moments themselves. -/
def Moment.StampedExactly (ms : List Moment) : Prop :=
  ∀ x ∈ ms, ∀ y ∈ ms, ∀ a b, x.stamp = .ok a → y.stamp = .ok b → (a.lt b = true ↔ x.instant < y.instant)

/-- A local moment within 272 years of the start of 1970. -/
structure Moment.Recent (m : Moment) : Prop where
  isLocal : m.isLocal = true
  least : -(2 ^ 33 - 1) * 1000000 ≤ m.ticks - epochTicks
  most : m.ticks - epochTicks ≤ (2 ^ 33 - 1) * 1000000

theorem Moment.Recent.stamped {m : Moment} (h : m.Recent) : m.Stamped := by
  have hLow := h.least
  have hEpoch : epochTicks = 62135596800000000 := rfl
  have hDay : dayTicks = 86400000000 := rfl
  intro _
  omega

/-- The stamp is half a microsecond away from the seconds since 1970 at most: the whole seconds are exact,
and little is lost when the fraction is rounded and when it is added. -/
theorem Moment.Recent.near_stamp {m : Moment} (h : m.Recent) : ∃ x, m.stamp = .ok x ∧
    x.Near ((m.ticks - epochTicks : ℤ) / 1000000) (2 ^ (-54 : ℤ) + 2 ^ (-21 : ℤ)) := by
  have hLow := h.least
  have hHigh := h.most
  have hEpoch : epochTicks = 62135596800000000 := rfl
  have hDay : dayTicks = 86400000000 := rfl
  have hStamp : m.stamp = .ok ((Double.ofInt ((m.ticks - epochTicks) / 1000000)).plus
      (seconds ((m.ticks - epochTicks) % 1000000))) := by
    simp only [stamp, offset_of_isLocal h.isLocal]
    rw [if_neg (by omega)]
  generalize m.ticks - epochTicks = since at hLow hHigh hStamp ⊢
  have hWhole : (Double.ofInt (since / 1000000)).Near (since / 1000000 : ℤ) 0 := Double.near_ofInt (by omega)
  have hRest : (seconds (since % 1000000)).Near ((since % 1000000 : ℤ) / (1000000 : ℕ)) (2 ^ ((0 : ℤ) - 54)) := by
    have hBounds : 0 ≤ since % 1000000 ∧ since % 1000000 < 1000000 := by omega
    have hLeast : (0 : ℚ) ≤ (since % 1000000 : ℤ) := by exact_mod_cast hBounds.1
    refine Double.near_ofQuotient (by decide) (by decide) (by decide) ?_
    rw [zpow_zero, abs_of_nonneg (by positivity), div_lt_one (by norm_num)]
    exact_mod_cast hBounds.2
  have hSum : ((since / 1000000 : ℤ) : ℚ) + (since % 1000000 : ℤ) / (1000000 : ℕ) = (since : ℤ) / 1000000 := by
    have hDivision : ((1000000 * (since / 1000000) + since % 1000000 : ℤ) : ℚ) = since :=
      congrArg Int.cast (Int.mul_ediv_add_emod since 1000000)
    push_cast at hDivision ⊢
    linarith
  have hBound : |((since / 1000000 : ℤ) : ℚ) + (since % 1000000 : ℤ) / (1000000 : ℕ)| + (0 + 2 ^ ((0 : ℤ) - 54)) <
      2 ^ (33 : ℤ) := by
    have hSize : |(since : ℚ)| ≤ (2 ^ 33 - 1) * 1000000 := by
      rw [abs_le]
      exact ⟨by exact_mod_cast (by omega : -((2 ^ 33 - 1) * 1000000) ≤ since), by exact_mod_cast hHigh⟩
    rw [hSum, abs_div, abs_of_pos (by norm_num : (0 : ℚ) < 1000000)]
    have hSeconds : |(since : ℚ)| / 1000000 ≤ 2 ^ 33 - 1 := (div_le_iff₀ (by norm_num)).mpr hSize
    norm_num at hSeconds ⊢
    linarith
  have hNear := Double.near_plus hWhole hRest (by decide) (by decide) hBound
  rw [hSum, zero_add] at hNear
  exact ⟨_, hStamp, hNear⟩

/-- Moments around 1970 are told apart by their stamps, down to the microsecond. -/
theorem Moment.stampedExactly_of_recent {ms : List Moment} (h : ∀ m ∈ ms, m.Recent) : StampedExactly ms := by
  have hLess : ∀ x ∈ ms, ∀ y ∈ ms, ∀ a b, x.stamp = .ok a → y.stamp = .ok b → x.ticks < y.ticks → a.lt b = true := by
    intro x hx y hy a b ha hb hTicks
    obtain ⟨_, ha', hNear⟩ := (h x hx).near_stamp
    obtain ⟨_, hb', hNear'⟩ := (h y hy).near_stamp
    cases ha.symm.trans ha'
    cases hb.symm.trans hb'
    refine Double.lt_of_near hNear hNear' ?_
    have hApart : ((x.ticks - epochTicks : ℤ) : ℚ) + 1 ≤ (y.ticks - epochTicks : ℤ) := by
      exact_mod_cast (by omega : x.ticks - epochTicks + 1 ≤ y.ticks - epochTicks)
    have hSeconds : ((x.ticks - epochTicks : ℤ) : ℚ) / 1000000 + 1 / 1000000 ≤ (y.ticks - epochTicks : ℤ) / 1000000 := by
      rw [← add_div]
      exact div_le_div_of_nonneg_right hApart (by norm_num)
    norm_num at hSeconds ⊢
    linarith
  intro x hx y hy a b ha hb
  rw [instant_of_isLocal (h x hx).isLocal, instant_of_isLocal (h y hy).isLocal]
  refine ⟨fun hLt => ?_, hLess x hx y hy a b ha hb⟩
  have hBack : b.lt a = false := Double.lt_asymm hLt
  by_contra hNot
  rcases (not_lt.mp hNot).lt_or_eq with hAfter | hSame
  · rw [hLess y hy x hx b a hb ha hAfter] at hBack
    cases hBack
  · have hOffset := (offset_of_isLocal (h x hx).isLocal).trans (offset_of_isLocal (h y hy).isLocal).symm
    obtain rfl := ext hSame.symm hOffset
    cases ha.symm.trans hb
    rw [hLt] at hBack
    cases hBack

variable {by_ : SortBy} {t : Task} {tasks ts : List Task} {f : TaskFilter}

/-- The moments that the order looks at have stamps. -/
structure Task.Listable (by_ : SortBy) (t : Task) : Prop where
  created : by_ ≠ .alphabetical → t.createdAt.Stamped
  due : by_ = .dueDate → ∀ m ∈ t.due, m.Stamped

theorem SortKey.needs_ofTask (by_ : SortBy) (t : Task) : Needs (t.Listable by_) (ofTask by_ t) := by
  have hCreated := t.createdAt.needs_stamp
  cases by_ with
  | priority => exact hCreated.map.congr ⟨fun h => ⟨fun _ => h, nofun⟩, fun h => h.created nofun⟩
  | createdAt => exact hCreated.map.congr ⟨fun h => ⟨fun _ => h, nofun⟩, fun h => h.created nofun⟩
  | alphabetical => exact (needs_ok _).congr ⟨fun _ => ⟨nofun, nofun⟩, fun _ => trivial⟩
  | dueDate =>
    unfold ofTask
    cases hDue : t.due with
    | none =>
      exact hCreated.map.congr ⟨fun h => ⟨fun _ => h, fun _ => by simp [hDue]⟩, fun h => h.created nofun⟩
    | some m =>
      refine (m.needs_stamp.bind fun _ => hCreated.map).congr ⟨fun h => ⟨fun _ => h.2, fun _ => ?_⟩, fun h => ?_⟩
      · simpa [hDue] using h.1
      · exact ⟨h.due rfl m hDue, h.created nofun⟩

/-! ## Lists in order -/

namespace Task

theorem needs_listed (tasks : List Task) (f : TaskFilter) (by_ : SortBy) :
    Needs (∀ t ∈ tasks, f.admits t = true → t.Listable by_) (listed tasks f by_) := by
  have hKeys : Needs (∀ t ∈ tasks.filter f.admits, t.Listable by_)
      ((tasks.filter f.admits).mapM fun t => do return (← SortKey.ofTask by_ t, t)) :=
    needs_mapM fun t _ => (SortKey.needs_ofTask by_ t).map
  exact hKeys.map.congr (by simp)

/-- Each task is sorted by its own key. -/
theorem exists_keyed (h : ordered tasks by_ = .ok ts) : ∃ keyed : List (SortKey × Task), keyed.map (·.2) = tasks ∧
    (∀ k ∈ keyed, SortKey.ofTask by_ k.2 = .ok k.1) ∧ ts = (keyed.mergeSort fun a b => a.1.le b.1).map (·.2) := by
  obtain ⟨keyed, hKeyed, hSorted⟩ := bind_eq_ok.mp h
  have hPairs : List.Forall₂ (fun t k => SortKey.ofTask by_ k.2 = .ok k.1 ∧ t = k.2) tasks keyed := by
    refine (mapM_eq_ok.mp hKeyed).imp fun t k hPair => ?_
    obtain ⟨key, hKey, hPair⟩ := bind_eq_ok.mp hPair
    obtain rfl := pure_eq_ok.mp hPair
    exact ⟨hKey, rfl⟩
  refine ⟨keyed, ?_, ?_, (pure_eq_ok.mp hSorted).symm⟩
  · have hTasks : List.Forall₂ (· = ·) tasks (keyed.map (·.2)) :=
      List.forall₂_map_right_iff.mpr (hPairs.imp fun _ _ => And.right)
    exact (List.forall₂_eq_eq_eq ▸ hTasks).symm
  · intro k hk
    obtain ⟨t, _, hKey, _⟩ := Attempt.exists_of_mem_paired hPairs hk
    exact hKey

/-- What is listed is what the filter admits, each task as often as it is there. -/
theorem perm_of_listed (h : listed tasks f by_ = .ok ts) : ts.Perm (tasks.filter f.admits) := by
  obtain ⟨keyed, hTasks, _, rfl⟩ := exists_keyed h
  rw [← hTasks]
  exact (List.mergeSort_perm keyed _).map (·.2)

end Task

/-! ## The order without rounding -/

/-- What a filter asks of a task. -/
structure TaskFilter.Passes (f : TaskFilter) (t : Task) : Prop where
  archive : f.includeArchived = true ∨ t.status ≠ .archived
  tag : ∀ tag ∈ f.tag, some (String.ofList (Text.lower tag.toList)) ∈ t.tags
  project : ∀ project ∈ f.project, t.project = some project

theorem TaskFilter.admits_iff : f.admits t = true ↔ f.Passes t := by
  have hParts : f.admits t = true ↔ (f.includeArchived = true ∨ t.status ≠ .archived) ∧
      (∀ tag ∈ f.tag, some (String.ofList (Text.lower tag.toList)) ∈ t.tags) ∧
      ∀ project ∈ f.project, t.project = some project := by
    simp [admits, Option.all_eq_true, and_assoc]
  rw [hParts]
  exact ⟨fun ⟨hArchive, hTag, hProject⟩ => ⟨hArchive, hTag, hProject⟩, fun h => ⟨h.archive, h.tag, h.project⟩⟩

instance (f : TaskFilter) (t : Task) : Decidable (f.Passes t) :=
  decidable_of_iff _ TaskFilter.admits_iff

namespace Task

variable {a b : Task}

/-- The moments that an order may look at. -/
def orderMoments (t : Task) : List Moment :=
  t.createdAt :: t.due.toList

def Newer (a b : Task) : Prop :=
  b.createdAt.instant < a.createdAt.instant

/-- From the most urgent one to none at all. -/
def priorities : List (Option Priority) :=
  [some .high, some .medium, some .low, none]

/-- Any due date is before none. -/
def DueBefore (a b : Task) : Prop :=
  match a.due, b.due with
  | some x, some y => x.instant < y.instant ∨ x.instant = y.instant ∧ Newer a b
  | some _, none => True
  | none, some _ => False
  | none, none => Newer a b

/-- What comes first by the criterion alone. -/
def Precedes : SortBy → Task → Task → Prop
  | .priority, a, b => priorities.idxOf a.priority < priorities.idxOf b.priority ∨ a.priority = b.priority ∧ Newer a b
  | .dueDate, a, b => DueBefore a b
  | .alphabetical, a, b => Text.caseFold a.title.toList < Text.caseFold b.title.toList
  | .createdAt, a, b => Newer a b

/-- Neither comes first, so they keep their order. -/
def Tied (by_ : SortBy) (a b : Task) : Prop :=
  a.done = b.done ∧ ¬ Precedes by_ a b ∧ ¬ Precedes by_ b a

/-- The key of a task, with instants for the stamps. -/
def place (by_ : SortBy) (t : Task) : Bool ×ₗ ℕ ×ₗ ℤ ×ₗ List Char ×ₗ ℤ :=
  match by_ with
  | .priority => toLex (t.done, toLex (Priority.rank t.priority, toLex (0, toLex ([], -t.createdAt.instant))))
  | .dueDate => toLex (t.done, toLex (if t.due.isSome then 0 else 1,
      toLex ((t.due.map (·.instant)).getD 0, toLex ([], -t.createdAt.instant))))
  | .alphabetical => toLex (t.done, toLex (0, toLex (0, toLex (Text.caseFold t.title.toList, 0))))
  | .createdAt => toLex (t.done, toLex (0, toLex (0, toLex ([], -t.createdAt.instant))))

theorem rank_eq_idxOf (p : Option Priority) : Priority.rank p = priorities.idxOf p := by
  rcases p with _ | _ | _ | _ <;> rfl

theorem rank_inj {p q : Option Priority} : Priority.rank p = Priority.rank q ↔ p = q := by
  rcases p with _ | _ | _ | _ <;> rcases q with _ | _ | _ | _ <;> decide

theorem place_lt_iff : place by_ a < place by_ b ↔
    a.done = false ∧ b.done = true ∨ a.done = b.done ∧ Precedes by_ a b := by
  cases by_ with
  | priority => simp [place, Prod.Lex.toLex_lt_toLex, Bool.lt_iff, Precedes, Newer, ← rank_eq_idxOf, rank_inj]
  | dueDate =>
    cases hFirst : a.due <;> cases hSecond : b.due <;>
      simp [place, Prod.Lex.toLex_lt_toLex, Bool.lt_iff, Precedes, DueBefore, Newer, hFirst, hSecond]
  | alphabetical => simp [place, Prod.Lex.toLex_lt_toLex, Bool.lt_iff, Precedes]
  | createdAt => simp [place, Prod.Lex.toLex_lt_toLex, Bool.lt_iff, Precedes, Newer]

theorem tied_iff : Tied by_ a b ↔ place by_ a = place by_ b := by
  have hOrder : place by_ a = place by_ b ↔ ¬ place by_ a < place by_ b ∧ ¬ place by_ b < place by_ a := by
    rw [not_lt, not_lt, and_comm]
    exact le_antisymm_iff
  rw [hOrder, place_lt_iff, place_lt_iff]
  unfold Tied
  cases a.done <;> cases b.done <;> simp

instance (by_ : SortBy) (a b : Task) : Decidable (Tied by_ a b) :=
  decidable_of_iff _ tied_iff.symm

end Task

theorem SortKey.le_iff {p q : SortKey} {x y c d : ℤ}
    (hDue : p.rank = q.rank → (p.due.lt q.due = true ↔ x < y) ∧ (q.due.lt p.due = true ↔ y < x))
    (hCreated : p.created.lt q.created = true ↔ c < d) :
    p.le q = true ↔ toLex (p.done, toLex (p.rank, toLex (x, toLex (p.title, -c)))) ≤
      toLex (q.done, toLex (q.rank, toLex (y, toLex (q.title, -d)))) := by
  simp only [Prod.Lex.toLex_le_toLex, neg_le_neg_iff, le, bne_iff_ne]
  -- the parts are compared in turn, each only if those in front of it are equal
  split_ifs with hDone hRank hEarlier hLater hTitle
  · rw [Bool.lt_iff]
    cases hp : p.done <;> cases hq : q.done <;> simp_all
  · have hSame := not_not.mp hDone
    simp [hSame, hRank]
  · have hSame := not_not.mp hDone
    have hLess := (hDue (not_not.mp hRank)).1.mp hEarlier
    simp [hSame, not_not.mp hRank, hLess]
  · have hSame := not_not.mp hDone
    have hLess := (hDue (not_not.mp hRank)).2.mp hLater
    simp [hSame, not_not.mp hRank, hLess.not_gt, hLess.ne']
  all_goals
    have hSame := not_not.mp hDone
    obtain ⟨hLess, hMore⟩ := hDue (not_not.mp hRank)
    have hEqual : x = y := le_antisymm (not_lt.mp (mt hMore.mpr hLater)) (not_lt.mp (mt hLess.mpr hEarlier))
  · simp [hSame, not_not.mp hRank, hEqual, hTitle]
  · have hLeast : p.created.lt q.created = false ↔ d ≤ c := by rw [← not_lt, ← hCreated, Bool.not_eq_true]
    simp [hSame, not_not.mp hRank, hEqual, not_not.mp hTitle, hLeast]

namespace Task

variable {a b : Task} {ms : List Moment}

theorem keyed_of_dueDate {k : SortKey} (h : SortKey.ofTask .dueDate t = .ok k) :
    ∃ due created, (match t.due with | some m => m.stamp | none => .ok .zero) = .ok due ∧
      t.createdAt.stamp = .ok created ∧
      k = { done := t.done, rank := if t.due.isSome then 0 else 1, due, created } := by
  unfold SortKey.ofTask at h
  cases hDue : t.due <;> rw [hDue] at h <;> obtain ⟨due, hStamp, h⟩ := bind_eq_ok.mp h <;>
    obtain ⟨created, hCreated, h⟩ := bind_eq_ok.mp h <;>
    exact ⟨due, created, hStamp, hCreated, (pure_eq_ok.mp h).symm⟩

/-- Keys compare like places if the stamps compare like the moments. -/
theorem le_key_iff {p q : SortKey} (hExact : Moment.StampedExactly ms) (ha : a.orderMoments ⊆ ms)
    (hb : b.orderMoments ⊆ ms) (hp : SortKey.ofTask by_ a = .ok p) (hq : SortKey.ofTask by_ b = .ok q) :
    p.le q = true ↔ place by_ a ≤ place by_ b := by
  have hCreated : ∀ x y, a.createdAt.stamp = .ok x → b.createdAt.stamp = .ok y →
      (x.lt y = true ↔ a.createdAt.instant < b.createdAt.instant) :=
    hExact _ (ha List.mem_cons_self) _ (hb List.mem_cons_self)
  have hZero : Double.zero.lt Double.zero = true ↔ (0 : ℤ) < 0 := by decide
  cases by_ with
  | priority | createdAt =>
    obtain ⟨x, hx, h⟩ := bind_eq_ok.mp hp
    obtain rfl := pure_eq_ok.mp h
    obtain ⟨y, hy, h⟩ := bind_eq_ok.mp hq
    obtain rfl := pure_eq_ok.mp h
    exact SortKey.le_iff (fun _ => ⟨hZero, hZero⟩) (hCreated x y hx hy)
  | alphabetical =>
    cases hp
    cases hq
    exact SortKey.le_iff (x := 0) (y := 0) (c := 0) (d := 0) (fun _ => ⟨hZero, hZero⟩) hZero
  | dueDate =>
    obtain ⟨due, x, hDue, hx, rfl⟩ := keyed_of_dueDate hp
    obtain ⟨due', y, hDue', hy, rfl⟩ := keyed_of_dueDate hq
    refine SortKey.le_iff (fun hRank => ?_) (hCreated x y hx hy)
    cases hFirst : a.due <;> cases hSecond : b.due <;> rw [hFirst] at hDue hRank <;> rw [hSecond] at hDue' hRank
    · cases hDue
      cases hDue'
      exact ⟨hZero, hZero⟩
    · cases hRank
    · cases hRank
    · have hm := ha (List.mem_cons_of_mem _ (Option.mem_toList.mpr hFirst))
      have hn := hb (List.mem_cons_of_mem _ (Option.mem_toList.mpr hSecond))
      exact ⟨hExact _ hm _ hn _ _ hDue hDue', hExact _ hn _ hm _ _ hDue' hDue⟩

/-! ## The whole list -/

/-- The tasks in the order of a criterion: those that are done behind all others, and none in front of one that
precedes it. -/
structure Arranged (by_ : SortBy) (tasks ts : List Task) : Prop where
  perm : ts.Perm tasks
  doneLast : ts.Pairwise fun a b => a.done = true → b.done = true
  ordered : ts.Pairwise fun a b => a.done = b.done → ¬ Precedes by_ b a
  stable : ∀ t, ts.filter (fun u => Tied by_ t u) = tasks.filter fun u => Tied by_ t u

theorem ordered_eq (hExact : Moment.StampedExactly (tasks.flatMap orderMoments)) (h : ordered tasks by_ = .ok ts) :
    ts = tasks.mergeSort fun a b => place by_ a ≤ place by_ b := by
  obtain ⟨keyed, rfl, hKeys, rfl⟩ := exists_keyed h
  have hMoments : ∀ k ∈ keyed, k.2.orderMoments ⊆ (keyed.map (·.2)).flatMap orderMoments := fun k hk m hm =>
    List.mem_flatMap.mpr ⟨k.2, List.mem_map_of_mem hk, hm⟩
  refine List.map_mergeSort fun a ha b hb => Bool.eq_iff_iff.mpr ?_
  rw [decide_eq_true_iff]
  exact le_key_iff hExact (hMoments a ha) (hMoments b hb) (hKeys a ha) (hKeys b hb)

theorem arranged_mergeSort (by_ : SortBy) (tasks : List Task) :
    Arranged by_ tasks (tasks.mergeSort fun a b => place by_ a ≤ place by_ b) := by
  have hSorted : (tasks.mergeSort fun a b => place by_ a ≤ place by_ b).Pairwise fun a b => place by_ a ≤ place by_ b :=
    pairwise_mergeSort_of_key (f := place by_) (fun _ _ => decide_eq_true_iff) tasks
  refine ⟨List.mergeSort_perm _ _, hSorted.imp ?_, hSorted.imp ?_, fun t => ?_⟩
  · intro a b hLe hDone
    by_contra hOpen
    exact hLe.not_gt (place_lt_iff.mpr (.inl ⟨Bool.not_eq_true _ ▸ hOpen, hDone⟩))
  · intro a b hLe hDone hPrecedes
    exact hLe.not_gt (place_lt_iff.mpr (.inr ⟨hDone.symm, hPrecedes⟩))
  · refine filter_mergeSort_of_key (f := place by_) (fun _ _ => decide_eq_true_iff) (fun a b ha hb => ?_) tasks
    exact ((tied_iff.mp (of_decide_eq_true ha)).symm.trans (tied_iff.mp (of_decide_eq_true hb))).le

/-- Tasks are listed in order just if all that pass have stamps: each that passes as often as it is there, those that
are done last, each group in the order of the criterion, and tied tasks as they were. -/
theorem listed_arranged (f : TaskFilter) (by_ : SortBy)
    (hExact : Moment.StampedExactly ((tasks.filter fun t => f.Passes t).flatMap orderMoments)) :
    ((∀ t ∈ tasks, f.Passes t → t.Listable by_) →
      ∃ ts, listed tasks f by_ = .ok ts ∧ Arranged by_ (tasks.filter fun t => f.Passes t) ts) ∧
    (¬ (∀ t ∈ tasks, f.Passes t → t.Listable by_) → listed tasks f by_ = .error .noSuchDate) := by
  have hNeeds : Needs (∀ t ∈ tasks, f.Passes t → t.Listable by_) (listed tasks f by_) :=
    (needs_listed tasks f by_).congr (forall₂_congr fun t _ => by rw [TaskFilter.admits_iff])
  have hFilter : (tasks.filter fun t => f.Passes t) = tasks.filter f.admits := by
    refine List.filter_congr fun t _ => ?_
    rw [Bool.eq_iff_iff, TaskFilter.admits_iff, decide_eq_true_iff]
  refine ⟨fun hListable => ?_, hNeeds.undone⟩
  obtain ⟨ts, hListed⟩ := hNeeds.done hListable
  rw [hFilter] at hExact ⊢
  rw [ordered_eq hExact hListed] at hListed
  exact ⟨_, hListed, arranged_mergeSort by_ _⟩

/-- A finished chore, one without a due date and one that is due. -/
def chores : List Task :=
  [{ id := "a", title := "Water plants", status := .completed, createdAt := ⟨63858272400000000, none, by decide⟩ },
    { id := "b", title := "Sweep", createdAt := ⟨63858272400000001, none, by decide⟩ },
    { id := "c", title := "Pay rent", createdAt := ⟨63858272400000000, none, by decide⟩,
      due := some ⟨63858358800000000, none, by decide⟩ }]

theorem chores_arranged :
    Moment.StampedExactly ((chores.filter fun t => ({} : TaskFilter).Passes t).flatMap orderMoments) ∧
      ∃ ts, listed chores {} .dueDate = .ok ts ∧ Arranged .dueDate (chores.filter fun t => ({} : TaskFilter).Passes t) ts := by
  have hRecent : ∀ t ∈ chores, ∀ m ∈ t.orderMoments, m.Recent := by
    simp only [chores, orderMoments, Option.toList, List.forall_mem_cons]
    simp only [List.not_mem_nil, false_implies, implies_true, and_true]
    exact ⟨⟨rfl, by decide, by decide⟩, ⟨rfl, by decide, by decide⟩, ⟨rfl, by decide, by decide⟩, rfl, by decide, by decide⟩
  have hExact : Moment.StampedExactly ((chores.filter fun t => ({} : TaskFilter).Passes t).flatMap orderMoments) := by
    refine Moment.stampedExactly_of_recent fun m hm => ?_
    obtain ⟨t, ht, hm⟩ := List.mem_flatMap.mp hm
    exact hRecent t (List.mem_of_mem_filter ht) m hm
  refine ⟨hExact, (listed_arranged {} .dueDate hExact).1 ?_⟩
  exact fun t ht _ => ⟨fun _ => (hRecent t ht _ List.mem_cons_self).stamped,
    fun _ m hm => (hRecent t ht m (List.mem_cons_of_mem _ (Option.mem_toList.mpr hm))).stamped⟩

/-- A task of the first day cannot be listed by its date. -/
theorem firstDay_not_listed : ({} : TaskFilter).Passes
      { id := "a", title := "Old chest", createdAt := ⟨0, none, by decide⟩ } ∧
    listed [{ id := "a", title := "Old chest", createdAt := ⟨0, none, by decide⟩ }] {} .createdAt = .error .noSuchDate :=
  ⟨by decide, rfl⟩

end Task

end Agenda
