import Agenda.Text.Numeral
import Mathlib.Algebra.Order.Ring.Nat
import Mathlib.Data.List.Induction
import Mathlib.Data.List.TakeWhile
import Mathlib.Tactic.Ring

/-! # Reading back what was written

The numeral of a number, read again, is that number; zeros in front make no difference. A number
written to a fixed width that has room for it is read back from the start of any text, and the rest
of the text is left over.
-/

namespace Agenda.Text

/-- The number that a run of digits makes of the number before it. -/
def numeralFrom (n : Nat) (cs : List Char) : Nat :=
  cs.foldl (fun n c => 10 * n + (digitValue? c).getD 0) n

/-- What holds of the ten digits holds of each one that is written. -/
theorem forall_digitChar {p : Nat → Char → Prop} (h : ∀ k < 10, p k (Char.ofNat (48 + k))) (n : Nat) :
    p (n % 10) (digitChar n) :=
  h (n % 10) (Nat.mod_lt n (by decide))

theorem digitValue?_digitChar (n : Nat) : digitValue? (digitChar n) = some (n % 10) :=
  forall_digitChar (p := fun k c => digitValue? c = some k) (by decide) n

theorem numeralFrom_digitChar (n k : Nat) (cs : List Char) :
    numeralFrom n (digitChar k :: cs) = numeralFrom (10 * n + k % 10) cs := by
  rw [numeralFrom, List.foldl_cons, digitValue?_digitChar]
  rfl

theorem numeralFrom_digitsBefore {fuel n : Nat} (tail : List Char) (h : n < 10 ^ fuel) :
    numeralFrom 0 (digitsBefore fuel n tail) = numeralFrom n tail := by
  induction fuel generalizing n tail with
  | zero =>
    obtain rfl : n = 0 := by simpa using h
    rfl
  | succ fuel ih =>
    rw [digitsBefore]
    split
    · rw [numeralFrom_digitChar]
      congr 1
      omega
    · rw [ih (digitChar n :: tail) (by rw [Nat.pow_succ] at h; omega), numeralFrom_digitChar]
      congr 1
      omega

theorem lt_pow_log2 (n : Nat) : n < 10 ^ (n.log2 + 1) :=
  calc n < 2 ^ (n.log2 + 1) := Nat.lt_log2_self
    _ ≤ 10 ^ (n.log2 + 1) := Nat.pow_le_pow_left (by decide) _

theorem numeral_ofNat (n : Nat) : numeral (ofNat n) = n :=
  numeralFrom_digitsBefore [] (lt_pow_log2 n)

theorem numeral_zeros (k : Nat) (cs : List Char) : numeral (List.replicate k '0' ++ cs) = numeral cs := by
  induction k with
  | zero => rfl
  | succ k ih =>
    rw [List.replicate_succ, List.cons_append]
    exact ih

theorem numeral_append_digitChar (cs : List Char) (k : Nat) :
    numeral (cs ++ [digitChar k]) = 10 * numeral cs + k % 10 := by
  rw [numeral, List.foldl_append, List.foldl_cons, List.foldl_nil, digitValue?_digitChar]
  rfl

theorem numeral_padded {width n : Nat} (h : n < 10 ^ width) : numeral (padded width n) = n := by
  induction width generalizing n with
  | zero =>
    obtain rfl : n = 0 := by simpa using h
    rfl
  | succ width ih =>
    rw [Nat.pow_succ] at h
    rw [padded, numeral_append_digitChar, ih (by omega)]
    omega

theorem mem_digitsBefore {fuel n : Nat} {tail : List Char} {c : Char} (h : c ∈ digitsBefore fuel n tail) :
    c ∈ tail ∨ ∃ k, c = digitChar k := by
  induction fuel generalizing n tail with
  | zero => exact .inl h
  | succ fuel ih =>
    have hHead : c ∈ digitChar n :: tail → c ∈ tail ∨ ∃ k, c = digitChar k := by
      rintro (_ | ⟨_, hTail⟩)
      · exact .inr ⟨n, rfl⟩
      · exact .inl hTail
    rw [digitsBefore] at h
    split at h
    · exact hHead h
    · rcases ih h with h | h
      · exact hHead h
      · exact .inr h

theorem mem_ofNat {n : Nat} {c : Char} (h : c ∈ ofNat n) : ∃ k, c = digitChar k :=
  (mem_digitsBefore h).resolve_left List.not_mem_nil

/-- The leading digit is no zero. -/
theorem digitsBefore_eq_cons {fuel n : Nat} (tail : List Char) (hPos : 0 < n) (h : n < 10 ^ fuel) :
    ∃ k cs, digitsBefore fuel n tail = digitChar k :: cs ∧ 0 < k ∧ k < 10 := by
  induction fuel generalizing n tail with
  | zero => omega
  | succ fuel ih =>
    rw [digitsBefore]
    split
    · exact ⟨n, tail, rfl, hPos, by assumption⟩
    · rw [Nat.pow_succ] at h
      exact ih _ (by omega) (by omega)

theorem ofNat_eq_cons {n : Nat} (h : 0 < n) : ∃ k cs, ofNat n = digitChar k :: cs ∧ 0 < k ∧ k < 10 :=
  digitsBefore_eq_cons [] h (lt_pow_log2 n)

theorem ofNat_ne_nil (n : Nat) : ofNat n ≠ [] := by
  rcases Nat.eq_zero_or_pos n with rfl | hPos
  · exact List.cons_ne_nil _ _
  · obtain ⟨k, cs, hCons, -⟩ := ofNat_eq_cons hPos
    rw [hCons]
    exact List.cons_ne_nil _ _

theorem asciiDigit?_digitChar (n : Nat) : asciiDigit? (digitChar n) = some (n % 10) :=
  forall_digitChar (p := fun k c => asciiDigit? c = some k) (by decide) n

theorem length_padded (width n : Nat) : (padded width n).length = width := by
  induction width generalizing n with
  | zero => rfl
  | succ width ih => rw [padded, List.length_append, ih, List.length_singleton]

theorem isSome_asciiDigit?_of_mem_padded {width n : Nat} {c : Char} (h : c ∈ padded width n) :
    (asciiDigit? c).isSome = true := by
  induction width generalizing n with
  | zero => cases h
  | succ width ih =>
    rw [padded, List.mem_append, List.mem_singleton] at h
    rcases h with h | rfl
    · exact ih h
    · rw [asciiDigit?_digitChar]
      rfl

theorem takeFrom?_add {v k width width' : Nat} {cs rest : List Char} (h : takeFrom? v width cs = some (k, rest)) :
    takeFrom? v (width + width') cs = takeFrom? k width' rest := by
  induction width generalizing v cs with
  | zero =>
    cases h
    rw [Nat.zero_add]
  | succ width ih =>
    cases cs with
    | nil => cases h
    | cons c cs =>
      rw [takeFrom?] at h
      rw [Nat.succ_add, takeFrom?]
      split at h
      · exact ih h
      · cases h

theorem takeFrom?_padded {width n : Nat} (v : Nat) (rest : List Char) (h : n < 10 ^ width) :
    takeFrom? v width (padded width n ++ rest) = some (v * 10 ^ width + n, rest) := by
  induction width generalizing n rest with
  | zero =>
    obtain rfl : n = 0 := by simpa using h
    simp [padded, takeFrom?]
  | succ width ih =>
    have hHead : n / 10 < 10 ^ width := by
      rw [Nat.pow_succ] at h
      omega
    have hNumber : 10 * (v * 10 ^ width + n / 10) + n % 10 = v * 10 ^ (width + 1) + n := by
      rw [Nat.pow_succ]
      have := Nat.div_add_mod n 10
      ring_nf
      omega
    rw [padded, List.append_assoc, takeFrom?_add (ih _ hHead), List.singleton_append, takeFrom?,
      asciiDigit?_digitChar]
    exact congrArg some (Prod.ext hNumber rfl)

theorem take?_padded {width n : Nat} (rest : List Char) (h : n < 10 ^ width) :
    take? width (padded width n ++ rest) = some (n, rest) := by
  have hFrom := takeFrom?_padded 0 rest h
  rwa [Nat.zero_mul, Nat.zero_add] at hFrom

theorem takeWhile_padded {width n : Nat} {rest : List Char}
    (h : ∀ c, rest.head? = some c → asciiDigit? c = none) :
    (padded width n ++ rest).takeWhile (fun c => (asciiDigit? c).isSome) = padded width n := by
  rw [List.takeWhile_append_of_pos fun c => isSome_asciiDigit?_of_mem_padded]
  cases rest with
  | nil => simp
  | cons c rest => simp [h c rfl]

end Agenda.Text
