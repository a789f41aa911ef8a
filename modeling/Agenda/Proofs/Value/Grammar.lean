import Agenda.Proofs.Value.Entries
import Agenda.Proofs.Value.Numeral
import Agenda.Text.Blank

/-! # What JSON texts denote

The notation of JSON as a relation between texts and data: each part of a text may be written in any
of the ways that the notation allows, with space around the values and keys. What such a text begins
and ends with tells the values in it apart from the space and the signs around them.
-/

namespace Agenda.Value

open Text

/-! ## The notation -/

/-- Space that may stand around values and keys. -/
def Space (cs : List Char) : Prop :=
  ∀ c ∈ cs, Unread.isSpace c = true

/-- Four hexadecimal digits and the number that they write. -/
inductive Hex : List Char → ℕ → Prop
  | digits {a b c d : Char} {i j k l : ℕ} (ha : hexValue? a = some i) (hb : hexValue? b = some j)
      (hc : hexValue? c = some k) (hd : hexValue? d = some l) : Hex [a, b, c, d] (((i * 16 + j) * 16 + k) * 16 + l)

/-- One character of a string, in all the ways to write it. A character beyond the basic plane has
the code of two halves. -/
inductive Glyph : List Char → Char → Prop
  | plain {c : Char} (hCode : 32 ≤ c.toNat) (hQuote : c ≠ '"') (hSlash : c ≠ '\\') : Glyph [c] c
  | short {c d : Char} (h : simpleEscape? d = some c) : Glyph ['\\', d] c
  | code {cs : List Char} {n : ℕ} (h : Hex cs n) (hWhole : n < 0xD800 ∨ 0xE000 ≤ n) :
      Glyph ('\\' :: 'u' :: cs) (Char.ofNat n)
  | halves {cs ds : List Char} {high low : ℕ} (hHigh : Hex cs high) (hLow : Hex ds low)
      (hHighRange : 0xD800 ≤ high ∧ high < 0xDC00) (hLowRange : 0xDC00 ≤ low ∧ low < 0xE000) :
      Glyph ('\\' :: 'u' :: (cs ++ '\\' :: 'u' :: ds))
        (Char.ofNat (0x10000 + (high - 0xD800) * 0x400 + (low - 0xDC00)))

/-- The characters of a string and the quote behind them. -/
inductive Quoted : List Char → List Char → Prop
  | stop : Quoted ['"'] []
  | char {cs text chars : List Char} {c : Char} (hChar : Glyph cs c) (h : Quoted text chars) :
      Quoted (cs ++ text) (c :: chars)

/-- An entry of an object and how it is written. -/
structure Member where
  front : List Char
  keyText : List Char
  key : List Char
  back : List Char
  text : List Char
  value : Value

namespace Member

/-- Between the key and the colon there may be space too. -/
def written (m : Member) : List Char :=
  m.front ++ ('"' :: (m.keyText ++ (m.back ++ ':' :: m.text)))

def entry (m : Member) : String × Value :=
  (String.ofList m.key, m.value)

structure Keyed (m : Member) : Prop where
  front : Space m.front
  key : Quoted m.keyText m.key
  back : Space m.back

end Member

def separated (texts : List (List Char)) : List Char :=
  [','].intercalate texts

/-- What a text denotes. Of a key that an object repeats the last value counts. -/
inductive Denotes : List Char → Value → Prop
  | constant {word : List Char} {v : Value} (h : (word, v) ∈ constants) : Denotes word v
  | number {n : Numeral} {cs : List Char} {v : Value} (hSound : n.Sound) (hText : n.Texts cs) (hValue : n.value = .ok v) :
      Denotes cs v
  | str {text chars : List Char} (h : Quoted text chars) : Denotes ('"' :: text) (.str (String.ofList chars))
  | emptyList {space : List Char} (h : Space space) : Denotes ('[' :: (space ++ [']'])) (.list [])
  | list {items : List (List Char × Value)} (hSome : items ≠ []) (h : ∀ i ∈ items, Denotes i.1 i.2) :
      Denotes ('[' :: (separated (items.map Prod.fst) ++ [']'])) (.list (items.map Prod.snd))
  | emptyObject {space : List Char} (h : Space space) : Denotes ('{' :: (space ++ ['}'])) (.object [])
  | object {members : List Member} (hSome : members ≠ []) (hKeys : ∀ m ∈ members, m.Keyed)
      (h : ∀ m ∈ members, Denotes m.text m.value) :
      Denotes ('{' :: (separated (members.map Member.written) ++ ['}'])) (.object (Entries.ofPairs (members.map Member.entry)))
  | spaced {front cs back : List Char} {v : Value} (hFront : Space front) (hBack : Space back) (h : Denotes cs v) :
      Denotes (front ++ (cs ++ back)) v

variable {c d : Char} {cs chars text body : List Char} {v : Value} {es : Entries} {n : Numeral}

theorem space_nil : Space [] :=
  fun _ h => nomatch h

theorem separated_cons_cons (first second : List Char) (more : List (List Char)) :
    separated (first :: second :: more) = first ++ ',' :: separated (second :: more) := by
  simp [separated]

/-! ## What a text begins with -/

/-- What a value begins with is no space, closes no list and marks no byte order. -/
def Opens (cs : List Char) : Prop :=
  ∃ c tail, cs = c :: tail ∧ Unread.isSpace c = false ∧ c ≠ ']' ∧ c ≠ Char.ofNat 0xFEFF

theorem opens_of_mem_constants : ∀ w ∈ constants, Opens w.1 := by
  unfold constants
  simp only [List.forall_mem_cons]
  exact ⟨⟨_, _, rfl, by decide, by decide, by decide⟩, ⟨_, _, rfl, by decide, by decide, by decide⟩,
    ⟨_, _, rfl, by decide, by decide, by decide⟩, ⟨_, _, rfl, by decide, by decide, by decide⟩,
    ⟨_, _, rfl, by decide, by decide, by decide⟩, ⟨_, _, rfl, by decide, by decide, by decide⟩,
    fun _ h => nomatch h⟩

/-- What a numeral begins with. -/
theorem texts_eq_cons (h : n.Sound) (hText : n.Texts cs) :
    ∃ d tail, isAscii d = true ∧ cs = (if n.negative then ['-'] else []) ++ d :: tail := by
  obtain ⟨power, -, rfl⟩ := hText
  obtain ⟨d, tail, hWhole⟩ := List.exists_cons_of_ne_nil h.nonempty
  refine ⟨d, tail ++ (n.decimals ++ power), h.whole d (hWhole ▸ List.mem_cons_self), ?_⟩
  rw [hWhole, List.cons_append]

theorem opens_digit (hd : isAscii d = true) (cs : List Char) : Opens (d :: cs) := by
  refine ⟨d, cs, rfl, ?_, ?_, ?_⟩
  · cases hSpace : Unread.isSpace d with
    | false => rfl
    | true =>
      simp only [Unread.isSpace, Bool.or_eq_true, beq_iff_eq] at hSpace
      rcases hSpace with ((rfl | rfl) | rfl) | rfl <;> cases hd
  · rintro rfl
    cases hd
  · rintro rfl
    cases hd

theorem opens_number (h : n.Sound) (hText : n.Texts cs) : Opens cs := by
  obtain ⟨d, tail, hd, rfl⟩ := texts_eq_cons h hText
  cases n.negative with
  | true => exact ⟨_, _, rfl, by decide, by decide, by decide⟩
  | false => exact opens_digit hd tail

/-- Behind the space in front a text opens like a value. -/
theorem Denotes.opens (h : Denotes cs v) : ∃ space inner, Space space ∧ Opens inner ∧ cs = space ++ inner := by
  have hNone : Space [] := fun _ h => nomatch h
  induction h with
  | constant h => exact ⟨[], _, hNone, opens_of_mem_constants _ h, rfl⟩
  | number hSound hText _ => exact ⟨[], _, hNone, opens_number hSound hText, rfl⟩
  | str _ => exact ⟨[], _, hNone, ⟨_, _, rfl, by decide, by decide, by decide⟩, rfl⟩
  | emptyList _ => exact ⟨[], _, hNone, ⟨_, _, rfl, by decide, by decide, by decide⟩, rfl⟩
  | list _ _ _ => exact ⟨[], _, hNone, ⟨_, _, rfl, by decide, by decide, by decide⟩, rfl⟩
  | emptyObject _ => exact ⟨[], _, hNone, ⟨_, _, rfl, by decide, by decide, by decide⟩, rfl⟩
  | object _ _ _ _ => exact ⟨[], _, hNone, ⟨_, _, rfl, by decide, by decide, by decide⟩, rfl⟩
  | @spaced front cs back v hFront hBack h ih =>
    obtain ⟨space, inner, hSpace, ⟨c, tail, rfl, hOpens⟩, rfl⟩ := ih
    exact ⟨front ++ space, c :: (tail ++ back), List.forall_mem_append.mpr ⟨hFront, hSpace⟩, ⟨c, _, rfl, hOpens⟩, by simp⟩

/-! ## What a text ends with -/

/-- What a value ends with is no blank and no comma. -/
def Closes (cs : List Char) : Prop :=
  ∃ front c, cs = front ++ [c] ∧ blank c = false ∧ c ≠ ','

theorem Closes.append (h : Closes cs) (front : List Char) : Closes (front ++ cs) := by
  obtain ⟨inner, c, rfl, hc⟩ := h
  exact ⟨front ++ inner, c, (List.append_assoc _ _ _).symm, hc⟩

theorem closes_of_mem_constants : ∀ w ∈ constants, Closes w.1 := by
  unfold constants
  simp only [List.forall_mem_cons]
  exact ⟨⟨"nul".toList, 'l', rfl, by decide, by decide⟩, ⟨"tru".toList, 'e', rfl, by decide, by decide⟩,
    ⟨"fals".toList, 'e', rfl, by decide, by decide⟩, ⟨"Na".toList, 'N', rfl, by decide, by decide⟩,
    ⟨"Infinit".toList, 'y', rfl, by decide, by decide⟩, ⟨"-Infinit".toList, 'y', rfl, by decide, by decide⟩,
    fun _ h => nomatch h⟩

theorem closes_digits (hSome : cs ≠ []) (h : ∀ c ∈ cs, isAscii c = true) : Closes cs := by
  refine ⟨cs.dropLast, cs.getLast hSome, (List.dropLast_append_getLast hSome).symm, ?_⟩
  have hDigit := h _ (List.getLast_mem hSome)
  generalize cs.getLast hSome = c at hDigit
  constructor
  · simp only [isAscii, Bool.and_eq_true, decide_eq_true_eq] at hDigit
    simp only [blank]
    rw [if_pos (by omega)]
    simp
    omega
  · rintro rfl
    cases hDigit

theorem closes_number (h : n.Sound) (hText : n.Texts cs) : Closes cs := by
  obtain ⟨power, hPower, rfl⟩ := hText
  apply Closes.append
  cases hPower with
  | none _ =>
    rw [List.append_nil]
    unfold Numeral.decimals
    split
    · rw [List.append_nil]
      exact closes_digits h.nonempty h.whole
    · rename_i hSome
      exact ((closes_digits (mt List.isEmpty_iff.mpr hSome) h.fraction).append ['.']).append _
  | minus _ hSome _ => exact (((closes_digits hSome h.exponent).append [_, _]).append _).append _
  | plus _ hSome _ => exact (((closes_digits hSome h.exponent).append [_, _]).append _).append _
  | bare _ hSome _ => exact (((closes_digits hSome h.exponent).append [_]).append _).append _

theorem Quoted.closes (h : Quoted text chars) : Closes text := by
  induction h with
  | stop => exact ⟨[], '"', rfl, by decide, by decide⟩
  | char _ _ ih => exact ih.append _

theorem closes_cons_append (c : Char) (cs : List Char) {d : Char} (hBlank : blank d = false) (hComma : d ≠ ',') :
    Closes (c :: (cs ++ [d])) :=
  ⟨c :: cs, d, rfl, hBlank, hComma⟩

/-- In front of the space at its end a text closes like a value, and denotes what it did. -/
theorem Denotes.closes (h : Denotes cs v) :
    ∃ inner space, Space space ∧ cs = inner ++ space ∧ Closes inner ∧ Denotes inner v := by
  have hWhole : ∀ {cs v}, Denotes cs v → Closes cs →
      ∃ inner space, Space space ∧ cs = inner ++ space ∧ Closes inner ∧ Denotes inner v :=
    fun hDenotes hCloses => ⟨_, [], space_nil, (List.append_nil _).symm, hCloses, hDenotes⟩
  induction h with
  | constant h => exact hWhole (.constant h) (closes_of_mem_constants _ h)
  | number hSound hText hValue => exact hWhole (.number hSound hText hValue) (closes_number hSound hText)
  | str h => exact hWhole (.str h) (h.closes.append ['"'])
  | emptyList h => exact hWhole (.emptyList h) (closes_cons_append _ _ (by decide) (by decide))
  | list hSome h _ => exact hWhole (.list hSome h) (closes_cons_append _ _ (by decide) (by decide))
  | emptyObject h => exact hWhole (.emptyObject h) (closes_cons_append _ _ (by decide) (by decide))
  | object hSome hKeys h _ => exact hWhole (.object hSome hKeys h) (closes_cons_append _ _ (by decide) (by decide))
  | @spaced front cs back v hFront hBack h ih =>
    obtain ⟨inner, space, hSpace, rfl, hCloses, hInner⟩ := ih
    refine ⟨front ++ (inner ++ []), space ++ back, List.forall_mem_append.mpr ⟨hSpace, hBack⟩, by simp, ?_,
      .spaced hFront space_nil hInner⟩
    rw [List.append_nil]
    exact hCloses.append front

/-! ## Objects -/

/-- What stands between the braces of an object. -/
inductive Inside : List Char → Entries → Prop
  | space {space : List Char} (h : Space space) : Inside space []
  | members {members : List Member} (hSome : members ≠ []) (hKeys : ∀ m ∈ members, m.Keyed)
      (h : ∀ m ∈ members, Denotes m.text m.value) :
      Inside (separated (members.map Member.written)) (Entries.ofPairs (members.map Member.entry))

/-- The space in front of the closing brace may be left out. -/
theorem Inside.trimmed (h : Inside body es) :
    ∃ core space, Space space ∧ body = core ++ space ∧ Inside core es ∧ (core = [] ∨ Closes core) := by
  cases h with
  | space h => exact ⟨[], body, h, rfl, .space space_nil, .inl rfl⟩
  | @members members hSome hKeys h =>
    suffices hLast : ∃ members' : List Member, ∃ space, members' ≠ [] ∧ (∀ m ∈ members', m.Keyed) ∧
        (∀ m ∈ members', Denotes m.text m.value) ∧ members'.map Member.entry = members.map Member.entry ∧ Space space ∧
        separated (members.map Member.written) = separated (members'.map Member.written) ++ space ∧
        Closes (separated (members'.map Member.written)) by
      obtain ⟨members', space, hSome', hKeys', h', hEntries, hSpace, hText, hCloses⟩ := hLast
      rw [← hEntries]
      exact ⟨_, space, hSpace, hText, .members hSome' hKeys' h', .inr hCloses⟩
    induction members with
    | nil => exact absurd rfl hSome
    | cons m members ih =>
      obtain ⟨hKey, hKeys⟩ := List.forall_mem_cons.mp hKeys
      obtain ⟨hValue, hValues⟩ := List.forall_mem_cons.mp h
      cases members with
      | nil =>
        obtain ⟨inner, space, hSpace, hText, hCloses, hInner⟩ := hValue.closes
        refine ⟨[{ m with text := inner }], space, List.cons_ne_nil _ _,
          List.forall_mem_singleton.mpr ⟨hKey.front, hKey.key, hKey.back⟩, List.forall_mem_singleton.mpr hInner, rfl, hSpace,
          ?_, ?_⟩
        · simp [separated, Member.written, hText]
        · rw [List.map_singleton, separated, List.intercalate_singleton]
          exact ((((hCloses.append [':']).append m.back).append m.keyText).append ['"']).append m.front
      | cons next members =>
        obtain ⟨members', space, hSome', hKeys', h', hEntries, hSpace, hText, hCloses⟩ :=
          ih (List.cons_ne_nil _ _) hKeys hValues
        obtain ⟨next', members', rfl⟩ := List.exists_cons_of_ne_nil hSome'
        refine ⟨m :: next' :: members', space, List.cons_ne_nil _ _, List.forall_mem_cons.mpr ⟨hKey, hKeys'⟩,
          List.forall_mem_cons.mpr ⟨hValue, h'⟩, congrArg (m.entry :: ·) hEntries, hSpace, ?_, ?_⟩
        · have hMore : ∀ (m' : Member) (ms : List Member), separated ((m :: m' :: ms).map Member.written) =
              m.written ++ ',' :: separated ((m' :: ms).map Member.written) := fun _ _ => separated_cons_cons _ _ _
          rw [hMore, hMore, hText, List.append_assoc]
          rfl
        · rw [List.map_cons, List.map_cons, separated_cons_cons]
          exact (hCloses.append [',']).append m.written

end Agenda.Value
