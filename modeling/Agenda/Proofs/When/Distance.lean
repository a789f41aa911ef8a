import Agenda.Proofs.Pattern.First
import Agenda.Proofs.Pattern.Seam
import Agenda.Proofs.When.Alone

/-! # Distances from now

A distance is a number and a unit, said in one of four ways. Of the rules only one reads it, and that
reads all of it, however long the numeral is: the others are not led anywhere by the characters that
stand side by side in such a phrase. So every way to say it means the moment so many units from now.
-/

namespace Agenda.When

open Pattern Text

variable {now later : Moment} {ds rest front back : List Char} {unit : String} {plural strict : Bool} {before : Option Char}

/-! ## The moment so many units from now -/

/-- The second moment is so many units after the first: minutes, hours, days and weeks have one length,
months and years lead to the same day of another month, or to its last day if that is too short. -/
def IsLater (now : Moment) (n : Nat) (unit : String) (later : Moment) : Prop :=
  match lengths.lookup unit with
  | some ticks => later.ticks = now.ticks + n * ticks ∧ later.offset = now.offset
  | none =>
    let month := now.day.monthIndex + (if unit = "month" then 1 else 12) * n
    later.day.monthIndex = month ∧ later.day.dayOfMonth = min now.day.dayOfMonth (Day.lengthAt month) ∧
      later.clock = now.clock ∧ later.offset = now.offset

theorem offset_of_isLater {n : Nat} (h : IsLater now n unit later) : offset now n unit.toList = .ok later := by
  unfold IsLater at h
  rw [offset_eq, String.ofList_toList]
  cases hLength : lengths.lookup unit with
  | some ticks =>
    rw [hLength] at h
    obtain ⟨hTicks, hOffset⟩ := h
    have hn : 0 ≤ n * ticks := Int.mul_nonneg (Int.natCast_nonneg n) (lengths_nonneg hLength)
    have hNow := now.inRange
    have hLater := later.inRange
    have hSpan : Moment.span (n * ticks) = .ok (n * ticks) := if_pos (by omega)
    dsimp only
    rw [hSpan, Attempt.ok_bind]
    exact Moment.plus_eq_ok.mpr ⟨hTicks, hOffset⟩
  | none =>
    rw [hLength] at h
    dsimp only
    rw [monthsOf, String.ofList_toList]
    exact Moment.plusMonths_eq_ok.mpr h

/-! ## The ways to say a distance -/

def AsciiNumeral (ds : List Char) : Prop :=
  ds ≠ [] ∧ ∀ c ∈ ds, c ∈ asciiDigits

def unitText (unit : String) (plural : Bool) : List Char :=
  unit.toList ++ if plural then ['s'] else []

def inText (word : String) (ds unit : List Char) : List Char :=
  word.toList ++ [' '] ++ (ds ++ ' ' :: unit)

def laterText (ds unit : List Char) (words : String) : List Char :=
  ds ++ ' ' :: (unit ++ ' ' :: words.toList)

def distanceTexts (ds unit : List Char) : List (List Char) :=
  [inText "in" ds unit, inText "after" ds unit, laterText ds unit "from now", laterText ds unit "later"]

/-! ## What is read -/

theorem isDigit_asciiDigits : ∀ c ∈ asciiDigits, isDigit c = true ∧ blank c = false ∧ wordChar c = true := by
  have hAll : asciiDigits.all (fun c => isDigit c && !blank c && wordChar c) = true := by decide
  simpa [and_assoc] using hAll

theorem not_blank_head (h : rest.head?.all (!blank ·) = true) : ∀ c ∈ rest.head?, blank c = false := by
  simpa using (Option.all_eq_true _ _).mp h

theorem prefers_gap (h : ∀ c ∈ rest.head?, blank c = false) : Prefers blanks before [' '] rest [] :=
  prefers_some1 (List.forall_mem_singleton.mpr (by decide)) (List.cons_ne_nil _ _) h

theorem prefers_number (h : AsciiNumeral ds) : Prefers (capture 1 numberPattern) before ds (' ' :: rest) [(1, ds)] := by
  have hEnd : ∀ c ∈ (' ' :: rest).head?, isDigit c = false := by
    rintro _ ⟨⟩
    decide
  exact ((prefers_some1 (fun c hc => (isDigit_asciiDigits c (h.2 c hc)).1) h.1 hEnd).left).capture 1

theorem AsciiNumeral.head (h : AsciiNumeral ds) (rest : List Char) : ∃ c ∈ asciiDigits, (ds ++ rest).head? = some c := by
  obtain ⟨hSome, hDigits⟩ := h
  cases ds with
  | nil => exact absurd rfl hSome
  | cons c cs => exact ⟨c, hDigits c List.mem_cons_self, rfl⟩

theorem AsciiNumeral.not_blank_head (h : AsciiNumeral ds) : ∀ c ∈ (ds ++ rest).head?, blank c = false := by
  obtain ⟨c, hc, hHead⟩ := h.head rest
  rw [hHead]
  rintro _ ⟨⟩
  exact (isDigit_asciiDigits c hc).2.1

theorem AsciiNumeral.isWord_head (h : AsciiNumeral ds) : isWord (ds ++ rest).head? = true := by
  obtain ⟨c, hc, hHead⟩ := h.head rest
  rw [hHead]
  exact (isDigit_asciiDigits c hc).2.2

/-- What may stand behind the unit. -/
def unitEnds : List (List Char) :=
  [[], " from now".toList, " later".toList]

theorem find_unit : ∀ unit ∈ unitNames, ∀ plural : Bool, ∀ rest ∈ unitEnds,
    unitNames.find? (fun s => s.toList.isPrefixOf (unit.toList ++ ((if plural then ['s'] else []) ++ rest))) = some unit := by
  decide

theorem not_blank_unitText : ∀ unit ∈ unitNames, ∀ plural, ∀ rest ∈ unitEnds,
    ∀ c ∈ (unitText unit plural ++ rest).head?, blank c = false := by
  have hAll : ∀ unit ∈ unitNames, ∀ plural, ∀ rest ∈ unitEnds,
      (unitText unit plural ++ rest).head?.all (!blank ·) = true := by decide
  exact fun unit hUnit plural rest hRest => not_blank_head (hAll unit hUnit plural rest hRest)

theorem isWord_last (front : List Char) {cs : List Char} (h : isWord cs.getLast? = true) :
    isWord ((front ++ cs).getLast?.or before) = true := by
  rw [List.getLast?_append]
  cases hLast : cs.getLast? with
  | none =>
    rw [hLast] at h
    cases h
  | some c =>
    rw [hLast] at h
    exact h

theorem isWord_last_unitText : ∀ unit ∈ unitNames, ∀ plural, isWord (unitText unit plural).getLast? = true := by
  decide

theorem prefers_unit (hUnit : unit ∈ unitNames) (hRest : rest ∈ unitEnds) :
    Prefers (unitPattern 2) before (unitText unit plural) rest [(2, unit.toList)] := by
  have hPlural : Prefers (opt (char 's')) (unit.toList.getLast?.or before) (if plural then ['s'] else []) rest [] := by
    cases plural with
    | true => exact (prefers_one rfl).left
    | false =>
      refine prefers_opt_char ?_
      simp only [unitEnds, List.mem_cons, List.not_mem_nil, or_false] at hRest
      rcases hRest with rfl | rfl | rfl <;> decide
  exact ((prefers_anyOf_exactly (find_unit unit hUnit plural rest hRest)).capture 2).append hPlural

theorem prefers_in {word : String} (hWord : word ∈ ["in", "after"]) (h : AsciiNumeral ds) (hUnit : unit ∈ unitNames) :
    Prefers inRule.pattern none (inText word ds (unitText unit plural)) [] [(2, unit.toList), (1, ds)] := by
  have hSplit : inText word ds (unitText unit plural) =
      [] ++ word.toList ++ [' '] ++ ds ++ [' '] ++ unitText unit plural ++ [] := by
    simp [inText]
  unfold inRule
  rw [hSplit]
  refine ((((((prefers_edge ?_).append (prefers_anyOf_exactly ?_)).append (prefers_gap h.not_blank_head)).append
    (prefers_number h)).append (prefers_gap (not_blank_unitText unit hUnit plural [] List.mem_cons_self))).append
    (prefers_unit hUnit List.mem_cons_self)).append (prefers_edge ?_)
  · rcases List.mem_pair.mp hWord with rfl | rfl <;> exact Bool.false_ne_true
  · rcases List.mem_pair.mp hWord with rfl | rfl <;> rfl
  · rw [isWord_last _ (isWord_last_unitText unit hUnit plural)]
    exact Bool.false_ne_true.symm

theorem prefers_ending {words : String} (hWords : words ∈ ["from now", "later"]) :
    Prefers (either (exactly "from" ++ blanks ++ exactly "now") (exactly "later")) before words.toList [] [] := by
  rcases List.mem_pair.mp hWords with rfl | rfl
  · exact (((prefers_exactly "from").append (prefers_gap (not_blank_head (by decide)))).append (prefers_exactly "now")).left
  · refine .right ?_ (prefers_exactly "later")
    rintro _ hPrefix ⟨_, now, rfl, ⟨front, gap, rfl, hFrom, _⟩, _⟩
    rw [takes_exactly.mp hFrom] at hPrefix
    obtain ⟨_, hText⟩ := hPrefix
    cases congrArg List.head? hText

theorem prefers_later {words : String} (hWords : words ∈ ["from now", "later"]) (h : AsciiNumeral ds)
    (hUnit : unit ∈ unitNames) :
    Prefers fromNowRule.pattern none (laterText ds (unitText unit plural) words) [] [(2, unit.toList), (1, ds)] := by
  have hSplit : laterText ds (unitText unit plural) words =
      [] ++ ds ++ [' '] ++ unitText unit plural ++ [' '] ++ words.toList ++ [] := by
    simp [laterText]
  have hRest : [' '] ++ (words.toList ++ []) ∈ unitEnds := by
    rcases List.mem_pair.mp hWords with rfl | rfl <;> decide
  unfold fromNowRule
  rw [hSplit]
  refine ((((((prefers_edge ?_).append (prefers_number h)).append
    (prefers_gap (not_blank_unitText unit hUnit plural _ hRest))).append (prefers_unit hUnit hRest)).append
    (prefers_gap ?_)).append (prefers_ending hWords)).append (prefers_edge ?_)
  · rw [h.isWord_head]
    exact Bool.false_ne_true
  · rcases List.mem_pair.mp hWords with rfl | rfl <;> exact not_blank_head (by decide)
  · have hLast : isWord words.toList.getLast? = true := by
      rcases List.mem_pair.mp hWords with rfl | rfl <;> rfl
    rw [isWord_last _ hLast]
    exact Bool.false_ne_true.symm

/-! ## What the other rules find -/

theorem exists_hideDigits (h : AsciiNumeral ds) : ∃ k, hideDigits ds = List.replicate (k + 1) '0' := by
  obtain ⟨k, hLength⟩ := Nat.exists_eq_succ_of_ne_zero (List.length_pos_iff.mpr h.1).ne'
  exact ⟨k, by rw [hideDigits_of_digits h.2, hLength]⟩

/-- What stands around the numeral is tidy and has no digits. -/
def Frames (front back : List Char) : Prop :=
  tidy (front ++ '0' :: back) = true ∧ hideDigits front = front ∧ hideDigits back = back

instance (front back : List Char) : Decidable (Frames front back) :=
  inferInstanceAs (Decidable (_ ∧ _ ∧ _))

theorem seams_of_frames (h : AsciiNumeral ds) (hFrames : Frames front back) :
    seams (hideDigits (front ++ (ds ++ back))) ⊆ seams (front ++ ('0' :: '0' :: back)) := by
  obtain ⟨_, hFront, hBack⟩ := hFrames
  obtain ⟨k, hHidden⟩ := exists_hideDigits h
  rw [hideDigits_append, hideDigits_append, hFront, hBack, hHidden]
  exact seamsFrom_run_subset front k

theorem tidy_run (front back : List Char) (c : Char) (k : Nat) :
    tidy (front ++ (List.replicate (k + 1) c ++ back)) = tidy (front ++ c :: back) := by
  induction k with
  | zero => rfl
  | succ k ih =>
    rw [← ih, List.replicate_succ, List.cons_append, List.replicate_succ, List.cons_append]
    unfold tidy
    congr 1
    · cases front <;> simp
    · simp [List.getLast?_append, List.getLast?_cons]

theorem settled_of_frames (h : AsciiNumeral ds) (hFrames : Frames front back) : Settled (front ++ (ds ++ back)) := by
  obtain ⟨hTidy, hFront, hBack⟩ := hFrames
  obtain ⟨k, hHidden⟩ := exists_hideDigits h
  apply settled_of_tidy
  rw [← tidy_hideDigits, hideDigits_append, hideDigits_append, hFront, hBack, hHidden, tidy_run]
  exact hTidy

def inPlaces : List Seam :=
  (unitNames.flatMap fun unit => [false, true].flatMap fun plural => ["in", "after"].flatMap fun word =>
    seams (inText word ['0', '0'] (unitText unit plural))).eraseDups

def laterPlaces : List Seam :=
  (unitNames.flatMap fun unit => [false, true].flatMap fun plural => ["from now", "later"].flatMap fun words =>
    seams (laterText ['0', '0'] (unitText unit plural) words)).eraseDups

theorem nowhere_in : ∀ r ∈ rules.take 5 ++ rules.drop 6, r.pattern.reach inPlaces inPlaces = [] := by
  decide +kernel

theorem nowhere_later : ∀ r ∈ rules.take 6 ++ rules.drop 7, r.pattern.reach laterPlaces laterPlaces = [] := by
  decide +kernel

/-! ## The meaning of a distance -/

theorem number_of_numeral (h : AsciiNumeral ds) (hLength : ds.length ≤ numeralLimit) : number ds = .ok (numeral ds) := by
  have hNone : numberWords.lookup (String.ofList ds) = none := by
    rw [List.lookup_eq_none_iff]
    intro e he
    have hWords : ∀ e ∈ numberWords, e.1.toList.head?.all (!asciiDigits.contains ·) = true := by decide
    obtain ⟨c, hc, hHead⟩ := h.head []
    rw [bne_iff_ne]
    intro hSame
    rw [List.append_nil, ← String.toList_ofList (l := ds), hSame] at hHead
    have hApart := (Option.all_eq_true _ _).mp (hWords e he) c hHead
    simp [hc] at hApart
  rw [number, hNone, numeral?, if_pos hLength]

theorem parse_of_relative {r : Rule} {rs rs' : List Rule} {places : List Seam} (h : AsciiNumeral ds)
    (hLength : ds.length ≤ numeralLimit) (hLater : IsLater now (numeral ds) unit later) (hFrames : Frames front back)
    (hRules : rules = rs ++ r :: rs') (hRule : ∀ m, r.resolve m now = relative m now) (hProper : r.pattern.nullable = false)
    (hFirst : Prefers r.pattern none (front ++ (ds ++ back)) [] [(2, unit.toList), (1, ds)])
    (hPlaces : seams (front ++ ('0' :: '0' :: back)) ⊆ places)
    (hNowhere : ∀ s ∈ rs ++ rs', s.pattern.reach places places = []) :
    parse (front ++ (ds ++ back)) now strict = .ok (some later.toMinute) := by
  have hText := settled_of_frames h hFrames
  obtain ⟨m, hMatch, hStart, hStop, hTexts⟩ := hFirst.all_eq hProper hText.some
  have hAlone := alone_of_places hRules (List.Subset.trans (seams_of_frames h hFrames) hPlaces) hNowhere hMatch
  have hResolve : r.resolve m now = .ok (some { hit .relative m with moment := some later }) := by
    have hNumber : m.text 1 = ds := by
      rw [Match.text_eq, hTexts]
      rfl
    have hUnit : m.text 2 = unit.toList := by
      rw [Match.text_eq, hTexts]
      rfl
    rw [hRule, relative, hNumber, hUnit, number_of_numeral h hLength, Attempt.ok_bind, offset_of_isLater hLater]
    rfl
  exact parse_of_alone hText hAlone ⟨hStart, hStop⟩ hResolve

theorem mem_places {α : Type} [BEq α] [LawfulBEq α] {f : String → Bool → String → List α} {words : List String}
    {word : String} (hUnit : unit ∈ unitNames) (hWord : word ∈ words) :
    f unit plural word ⊆ (unitNames.flatMap fun unit => [false, true].flatMap fun plural => words.flatMap fun word =>
      f unit plural word).eraseDups := by
  intro s hs
  rw [List.mem_eraseDups]
  simp only [List.mem_flatMap]
  exact ⟨unit, hUnit, plural, by cases plural <;> simp, word, hWord, hs⟩

theorem parse_in {word : String} (hWord : word ∈ ["in", "after"]) (h : AsciiNumeral ds)
    (hLength : ds.length ≤ numeralLimit) (hUnit : unit ∈ unitNames) (hLater : IsLater now (numeral ds) unit later) :
    parse (inText word ds (unitText unit plural)) now strict = .ok (some later.toMinute) := by
  have hFrames : ∀ word ∈ ["in", "after"], ∀ unit ∈ unitNames, ∀ plural,
      Frames (word.toList ++ [' ']) (' ' :: unitText unit plural) := by
    decide
  have hRules : rules = rules.take 5 ++ inRule :: rules.drop 6 := rfl
  exact parse_of_relative h hLength hLater (hFrames word hWord unit hUnit plural) hRules (fun _ => rfl) (by decide)
    (prefers_in hWord h hUnit)
    (mem_places (f := fun unit plural word => seams (inText word ['0', '0'] (unitText unit plural))) hUnit hWord) nowhere_in

theorem parse_later {words : String} (hWords : words ∈ ["from now", "later"]) (h : AsciiNumeral ds)
    (hLength : ds.length ≤ numeralLimit) (hUnit : unit ∈ unitNames) (hLater : IsLater now (numeral ds) unit later) :
    parse (laterText ds (unitText unit plural) words) now strict = .ok (some later.toMinute) := by
  have hFrames : ∀ words ∈ ["from now", "later"], ∀ unit ∈ unitNames, ∀ plural,
      Frames [] (' ' :: (unitText unit plural ++ ' ' :: words.toList)) := by
    decide
  have hRules : rules = rules.take 6 ++ fromNowRule :: rules.drop 7 := rfl
  exact parse_of_relative h hLength hLater (hFrames words hWords unit hUnit plural) hRules (fun _ => rfl) (by decide)
    (prefers_later hWords h hUnit)
    (mem_places (f := fun unit plural words => seams (laterText ['0', '0'] (unitText unit plural) words)) hUnit hWords)
    nowhere_later

/-- Every way to say a distance means the moment so many units from now, on the full minute. -/
theorem parse_distance (h : AsciiNumeral ds) (hLength : ds.length ≤ numeralLimit) (hUnit : unit ∈ unitNames)
    (hLater : IsLater now (numeral ds) unit later) :
    ∀ text ∈ distanceTexts ds (unitText unit plural), ∀ strict, parse text now strict = .ok (some later.toMinute) := by
  simp only [distanceTexts, List.forall_mem_cons]
  exact ⟨fun _ => parse_in (by simp) h hLength hUnit hLater, fun _ => parse_in (by simp) h hLength hUnit hLater,
    fun _ => parse_later (by simp) h hLength hUnit hLater, fun _ => parse_later (by simp) h hLength hUnit hLater,
    fun _ h => absurd h List.not_mem_nil⟩

example : distanceTexts ['3'] (unitText "day" true) =
    ["in 3 days".toList, "after 3 days".toList, "3 days from now".toList, "3 days later".toList] := rfl

/-- Thirty seconds past 10:20 on the last day of January 2024, and of February. -/
def lateJanuary : Moment := ⟨63842293230000000, none, by decide⟩

def lateFebruary : Moment := ⟨63844798830000000, none, by decide⟩

theorem month_from_january : IsLater lateJanuary (numeral "01".toList) "month" lateFebruary ∧
    ∀ text ∈ distanceTexts "01".toList (unitText "month" true), ∀ strict,
      parse text lateJanuary strict = .ok (some lateFebruary.toMinute) := by
  have hLater : IsLater lateJanuary (numeral "01".toList) "month" lateFebruary :=
    ⟨by decide, by decide, by decide, rfl⟩
  exact ⟨hLater, parse_distance ⟨by decide, List.forall_iff_forall_mem.mp (by decide)⟩ (by decide) (by decide) hLater⟩

end Agenda.When
