import Agenda.Proofs.Text.Numeral
import Agenda.Proofs.Time.Moment
import Agenda.Time.Print
import Agenda.Time.Stored

/-! # Moments written into data and read back

The date, the time of day with its microseconds, and an offset of whole minutes are read back as
they were written. Seconds of an offset are not written, so an offset that has some is lost.
-/

namespace Agenda

open Text

/-- The offset is one that data can hold: whole minutes, less than a day either way. -/
def WholeMinutes (offset : Int) : Prop :=
  offset % 60000000 = 0 ∧ -86400000000 < offset ∧ offset < 86400000000

instance (offset : Int) : Decidable (WholeMinutes offset) :=
  inferInstanceAs (Decidable (_ ∧ _))

namespace Moment

def Storable (m : Moment) : Prop :=
  ∀ offset, m.offset = some offset → WholeMinutes offset

theorem two?_padded {n : Int} (rest : List Char) (hLow : 0 ≤ n) (hHigh : n < 100) :
    two? (padded 2 n.toNat ++ rest) = some (n, rest) := by
  have hSmall : n.toNat < 10 ^ 2 := by omega
  rw [two?, take?_padded rest hSmall]
  simp [hLow]

theorem takeDay?_text (d : Day) (rest : List Char) : takeDay? (d.text ++ rest) = some (d, rest) := by
  obtain ⟨hYear, hYear'⟩ := d.year_bounds
  obtain ⟨hMonth, hMonth'⟩ := d.month_bounds
  obtain ⟨hDay, hDay'⟩ := d.dayOfMonth_bounds
  have hLength := Day.monthLength_le d.year hMonth hMonth'
  have hSmall : d.year.toNat < 10 ^ 4 := by omega
  have hNat : (d.year.toNat : Int) = d.year := Int.toNat_of_nonneg (by omega)
  have hText : d.text ++ rest = padded 4 d.year.toNat ++
      '-' :: (padded 2 d.month.toNat ++ '-' :: (padded 2 d.dayOfMonth.toNat ++ rest)) := by
    simp [Day.text]
  rw [hText, takeDay?, take?_padded _ hSmall]
  simp [two?_padded _ (by omega : 0 ≤ d.month) (by omega), two?_padded _ (by omega : 0 ≤ d.dayOfMonth) (by omega),
    hNat, Day.ofParts?_parts]

/-! ## The time of day -/

/-- What may follow a time of day: neither a digit nor a point. -/
def Follows (rest : List Char) : Prop :=
  ∀ c, rest.head? = some c → asciiDigit? c = none ∧ c ≠ '.' ∧ c ≠ ','

theorem takeMicros?_padded {n : Int} {rest : List Char} (hLow : 0 ≤ n) (hHigh : n < 1000000)
    (hRest : Follows rest) : takeMicros? (padded 6 n.toNat ++ rest) = some (n, rest) := by
  have hSmall : n.toNat < 10 ^ 6 := by omega
  have hLength : (padded 6 n.toNat).length = 6 := length_padded 6 _
  have hNonempty : (padded 6 n.toNat).isEmpty = false := by
    rw [List.isEmpty_eq_false_iff_exists_mem]
    exact List.exists_mem_of_length_pos (by omega)
  have hTake : take? 6 (padded 6 n.toNat) = some (n.toNat, []) := by
    have h := take?_padded [] hSmall
    rwa [List.append_nil] at h
  rw [takeMicros?, takeWhile_padded fun c hc => (hRest c hc).1]
  simp [hNonempty, hLength, hTake, hLow]

theorem takeTime?_parts {hour minute second micro : Int} {rest : List Char} (hHour : 0 ≤ hour ∧ hour ≤ 23)
    (hMinute : 0 ≤ minute ∧ minute ≤ 59) (hSecond : 0 ≤ second ∧ second ≤ 59)
    (hMicro : 0 ≤ micro ∧ micro < 1000000) (hRest : Follows rest) :
    takeTime? (padded 2 hour.toNat ++ ':' :: (padded 2 minute.toNat ++
        ':' :: (padded 2 second.toNat ++ (fraction micro ++ rest)))) =
      (Clock.ofTicks? (hour * 3600000000 + minute * 60000000 + second * 1000000 + micro)).map fun c => (c, rest) := by
  have hParts : ¬ (23 < hour ∨ 59 < minute ∨ 59 < second) := by omega
  have hTakeHour (rest : List Char) := two?_padded rest hHour.1 (by omega)
  have hTakeMinute (rest : List Char) := two?_padded rest hMinute.1 (by omega)
  have hTakeSecond (rest : List Char) := two?_padded rest hSecond.1 (by omega)
  rw [takeTime?, Option.map_eq_bind]
  simp only [hTakeHour, hTakeMinute, hTakeSecond, Option.bind_eq_bind, Option.bind_some, Option.pure_def,
    List.head?_cons, List.drop_succ_cons, List.drop_zero, bne_self_eq_false, beq_self_eq_true,
    Bool.false_eq_true, ↓reduceIte]
  by_cases hWhole : micro = 0
  · have hPoint : (rest.head? == some '.' || rest.head? == some ',') = false := by
      rw [Bool.or_eq_false_iff, beq_eq_false_iff_ne, beq_eq_false_iff_ne]
      exact ⟨fun hc => (hRest _ hc).2.1 rfl, fun hc => (hRest _ hc).2.2 rfl⟩
    simp only [fraction, hWhole, ↓reduceIte, List.nil_append, hPoint, Bool.false_eq_true, if_neg hParts]
    rfl
  · have hFraction := takeMicros?_padded hMicro.1 hMicro.2 hRest
    simp only [fraction, hWhole, ↓reduceIte, List.cons_append, List.head?_cons, beq_self_eq_true, Bool.true_or,
      List.drop_succ_cons, List.drop_zero, hFraction, Option.bind_some, if_neg hParts]
    rfl

theorem takeTime?_text (c : Clock) {rest : List Char} (hRest : Follows rest) :
    takeTime? (c.text ++ rest) = some (c, rest) := by
  have hRange := c.inRange
  have hTicks : c.hour * 3600000000 + c.minute * 60000000 + c.second * 1000000 + c.micro = c.ticks := by
    unfold Clock.hour Clock.minute Clock.second Clock.micro
    omega
  have hText : c.text ++ rest = padded 2 c.hour.toNat ++ ':' :: (padded 2 c.minute.toNat ++
      ':' :: (padded 2 c.second.toNat ++ (fraction c.micro ++ rest))) := by
    simp [Clock.text, Clock.hourMinute]
  have hHour : 0 ≤ c.hour ∧ c.hour ≤ 23 := by
    unfold Clock.hour
    omega
  have hMinute : 0 ≤ c.minute ∧ c.minute ≤ 59 := by
    unfold Clock.minute
    omega
  have hSecond : 0 ≤ c.second ∧ c.second ≤ 59 := by
    unfold Clock.second
    omega
  have hMicro : 0 ≤ c.micro ∧ c.micro < 1000000 := by
    unfold Clock.micro
    omega
  have hClock : Clock.ofTicks? c.ticks = some c := dif_pos hRange
  rw [hText, takeTime?_parts hHour hMinute hSecond hMicro hRest, hTicks, hClock]
  rfl

/-! ## The offset -/

theorem offsetOf?_sign {sign : Char} {n : Nat} (hSign : sign = '+' ∨ sign = '-') (hn : n < 1440) :
    offsetOf? (sign :: padded 2 (n / 60) ++ ':' :: padded 2 (n % 60)) =
      some (some (if sign = '-' then -(n * 60000000 : Int) else n * 60000000)) := by
  have hHour := take?_padded (':' :: padded 2 (n % 60)) (by omega : n / 60 < 10 ^ 2)
  have hMinute := take?_padded [] (by omega : n % 60 < 10 ^ 2)
  rw [List.append_nil] at hMinute
  have hSize : ((n / 60 : Nat) : Int) * 3600000000 + ((n % 60 : Nat) : Int) * 60000000 = n * 60000000 := by omega
  have hParts : ¬ (59 < ((n % 60 : Nat) : Int) ∨ 86400000000 ≤ (n : Int) * 60000000) := by omega
  rcases hSign with rfl | rfl
  · simp [offsetOf?, two?, hHour, hMinute]
    omega
  · simp [offsetOf?, two?, hHour, hMinute]
    omega

theorem offsetOf?_dataOffset {offset : Int} (h : WholeMinutes offset) :
    offsetOf? (dataOffset offset) = some (some offset) := by
  obtain ⟨hWhole, hLow, hHigh⟩ := h
  unfold dataOffset
  extract_lets n
  by_cases hZero : offset = 0
  · rw [if_pos hZero, hZero]
    rfl
  rw [if_neg hZero]
  by_cases hNegative : offset < 0
  · rw [if_pos hNegative, offsetOf?_sign (.inr rfl) (by omega)]
    congr 2
    rw [if_pos rfl]
    omega
  · rw [if_neg hNegative, offsetOf?_sign (.inl rfl) (by omega)]
    congr 2
    rw [if_neg (by decide)]
    omega

theorem follows_dataOffset (offset : Int) : Follows (dataOffset offset) := by
  unfold dataOffset
  extract_lets n
  intro c hc
  split_ifs at hc <;> cases hc <;> decide

theorem ofStored?_dataText {m : Moment} (h : m.Storable) : ofStored? m.dataText = some m := by
  have hText : m.dataText = m.day.text ++ 'T' :: (m.clock.text ++ (m.offset.map dataOffset).getD []) := by
    simp [dataText, reading]
  have hFollows : Follows ((m.offset.map dataOffset).getD []) := by
    cases m.offset with
    | none => rintro c ⟨⟩
    | some offset => exact follows_dataOffset offset
  have hOffset : offsetOf? ((m.offset.map dataOffset).getD []) = some m.offset := by
    cases hOffset : m.offset with
    | none => rfl
    | some offset => exact offsetOf?_dataOffset (h offset hOffset)
  have hRead : ofDateTime? m.dataText = some m := by
    rw [hText, ofDateTime?, takeDay?_text]
    simp [takeTime?_text m.clock hFollows, hOffset, ofDay_parts]
  rw [ofStored?, hRead]
  rfl

end Moment

end Agenda
