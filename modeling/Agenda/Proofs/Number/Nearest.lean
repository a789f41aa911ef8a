import Agenda.Number.Shortest
import Agenda.Number.Double
import Mathlib.Algebra.Order.Field.Power
import Mathlib.Algebra.Order.Floor.Semifield
import Mathlib.Data.Int.Log
import Mathlib.Data.Rat.Floor
import Mathlib.Tactic.FieldSimp
import Mathlib.Tactic.Linarith
import Mathlib.Tactic.Positivity

/-! # The nearest double

Rounding a fraction depends only on its value. The binade of the value is found by comparing powers
of two, and the mantissa is the value in units of that binade, rounded to even. So a fraction that
is itself a number of double precision is rounded to that number, and every rounding gives one. It
leads no further than half a unit in the last place, so numbers further apart keep their order.
-/

namespace Agenda

theorem cast_twoTo (n : ℕ) : ((twoTo n : ℕ) : ℚ) = 2 ^ n :=
  Nat.cast_pow 2 n

theorem twoTo_pos (n : ℕ) : 0 < twoTo n :=
  Nat.pow_pos (by decide)

namespace Double

variable {n d k : ℕ} {q : ℚ} {e : ℤ} {negative : Bool}

/-! ## Rounding to a whole number -/

/-- A number that is not negative, rounded to a whole number, a half to the even neighbour. -/
def roundRat (q : ℚ) : ℕ :=
  if Int.fract q < 1 / 2 then ⌊q⌋₊
  else if 1 / 2 < Int.fract q then ⌊q⌋₊ + 1
  else if ⌊q⌋₊ % 2 = 0 then ⌊q⌋₊ else ⌊q⌋₊ + 1

theorem roundQuotient_eq_roundRat (n : ℕ) (hd : 0 < d) : roundQuotient n d = roundRat (n / d) := by
  have hPos : (0 : ℚ) < d := by exact_mod_cast hd
  have hFloor : ⌊(n / d : ℚ)⌋₊ = n / d := by rw [Nat.floor_div_natCast, Nat.floor_natCast]
  have hFract : Int.fract (n / d : ℚ) = (n % d : ℕ) / d := Int.fract_div_natCast_eq_div_natCast_mod
  have hBelow : (n % d : ℕ) / (d : ℚ) < 1 / 2 ↔ 2 * (n % d) < d := by
    rw [div_lt_div_iff₀ hPos (by norm_num), one_mul, mul_comm]
    exact_mod_cast Iff.rfl
  have hAbove : 1 / 2 < (n % d : ℕ) / (d : ℚ) ↔ d < 2 * (n % d) := by
    rw [div_lt_div_iff₀ (by norm_num) hPos, one_mul, mul_comm]
    exact_mod_cast Iff.rfl
  unfold roundQuotient roundRat
  simp only [hFloor, hFract, hBelow, hAbove]

theorem floor_le_roundRat (q : ℚ) : ⌊q⌋₊ ≤ roundRat q := by
  unfold roundRat
  split_ifs <;> omega

theorem roundRat_le_floor (q : ℚ) : roundRat q ≤ ⌊q⌋₊ + 1 := by
  unfold roundRat
  split_ifs <;> omega

theorem roundRat_natCast (k : ℕ) : roundRat k = k := by
  unfold roundRat
  rw [Int.fract_natCast, if_pos (by norm_num), Nat.floor_natCast]

theorem le_roundRat (h : (k : ℚ) ≤ q) : k ≤ roundRat q :=
  (Nat.le_floor h).trans (floor_le_roundRat q)

theorem roundRat_le (hq : 0 ≤ q) (h : q < k) : roundRat q ≤ k :=
  (roundRat_le_floor q).trans ((Nat.floor_lt hq).mpr h)

theorem scaled_fst_div_snd (n d : ℕ) (e : ℤ) :
    ((scaled n d e).1 : ℚ) / (scaled n d e).2 = n / d / 2 ^ e := by
  unfold scaled
  split
  · rename_i h
    obtain ⟨k, rfl⟩ := Int.eq_ofNat_of_zero_le h
    push_cast [cast_twoTo]
    rw [Int.toNat_natCast, zpow_natCast, div_div]
  · rename_i h
    obtain ⟨k, rfl⟩ := Int.exists_eq_neg_ofNat (by omega : e ≤ 0)
    push_cast [cast_twoTo]
    rw [neg_neg, Int.toNat_natCast, zpow_neg, zpow_natCast, div_inv_eq_mul, div_mul_eq_mul_div]

theorem scaled_snd_pos (hd : 0 < d) (n : ℕ) (e : ℤ) : 0 < (scaled n d e).2 := by
  unfold scaled
  split
  · exact Nat.mul_pos hd (twoTo_pos _)
  · exact hd

theorem two_zpow_pos (e : ℤ) : (0 : ℚ) < 2 ^ e :=
  zpow_pos (by norm_num) e

theorem log_eq_of_bounds (hLow : (2 : ℚ) ^ e ≤ q) (hHigh : q < 2 ^ (e + 1)) : Int.log 2 q = e := by
  have hq : 0 < q := (two_zpow_pos e).trans_le hLow
  have h := (Int.zpow_le_iff_le_log (b := 2) (by decide) hq).mp (by exact_mod_cast hLow)
  have h' := (Int.lt_zpow_iff_log_lt (b := 2) (by decide) hq).mp (by exact_mod_cast hHigh)
  omega

theorem two_zpow_log_le (hq : 0 < q) : (2 : ℚ) ^ Int.log 2 q ≤ q := by
  exact_mod_cast Int.zpow_log_le_self (b := 2) (by decide) hq

theorem lt_two_zpow_log (q : ℚ) : q < (2 : ℚ) ^ (Int.log 2 q + 1) := by
  exact_mod_cast Int.lt_zpow_succ_log_self (b := 2) (by decide) q

theorem log_natCast (n : ℕ) : Int.log 2 (n : ℚ) = n.log2 := by
  rw [Int.log_natCast, Nat.log2_eq_log_two]

/-- The first guess at the binade of a fraction is right or one too high, and a comparison tells. -/
theorem log_div (hn : n ≠ 0) (hd : d ≠ 0) :
    Int.log 2 (n / d : ℚ) - 52 =
      let guess : ℤ := (n.log2 : ℤ) - d.log2 - 52
      let unit := scaled n d guess
      if unit.1 < unit.2 * twoTo 52 then guess - 1 else guess := by
  extract_lets guess unit
  have hnPos : (0 : ℚ) < n := by exact_mod_cast Nat.pos_of_ne_zero hn
  have hdPos : (0 : ℚ) < d := by exact_mod_cast Nat.pos_of_ne_zero hd
  have hnLow := two_zpow_log_le hnPos
  have hnHigh := lt_two_zpow_log (n : ℚ)
  have hdLow := two_zpow_log_le hdPos
  have hdHigh := lt_two_zpow_log (d : ℚ)
  rw [log_natCast] at hnLow hnHigh
  rw [log_natCast] at hdLow hdHigh
  have hLow : (2 : ℚ) ^ (guess + 51) ≤ n / d := by
    rw [le_div_iff₀ hdPos]
    calc (2 : ℚ) ^ (guess + 51) * d ≤ 2 ^ (guess + 51) * 2 ^ ((d.log2 : ℤ) + 1) :=
        mul_le_mul_of_nonneg_left hdHigh.le (two_zpow_pos _).le
      _ = 2 ^ (n.log2 : ℤ) := by
        rw [← zpow_add₀ (by norm_num)]
        congr 1
        omega
      _ ≤ n := hnLow
  have hHigh : (n / d : ℚ) < 2 ^ (guess + 53) := by
    rw [div_lt_iff₀ hdPos]
    calc (n : ℚ) < 2 ^ ((n.log2 : ℤ) + 1) := hnHigh
      _ = 2 ^ (guess + 53) * 2 ^ (d.log2 : ℤ) := by
        rw [← zpow_add₀ (by norm_num)]
        congr 1
        omega
      _ ≤ 2 ^ (guess + 53) * d := mul_le_mul_of_nonneg_left hdLow (two_zpow_pos _).le
  have hUnit : unit.1 < unit.2 * twoTo 52 ↔ (n / d : ℚ) < 2 ^ (guess + 52) := by
    have hPos : (0 : ℚ) < unit.2 := by exact_mod_cast scaled_snd_pos (Nat.pos_of_ne_zero hd) n guess
    have hValue := scaled_fst_div_snd n d guess
    rw [add_comm, zpow_add₀ (by norm_num), ← div_lt_iff₀ (two_zpow_pos guess), ← hValue, div_lt_iff₀ hPos,
      mul_comm]
    exact_mod_cast Iff.rfl
  split
  · rename_i h
    rw [log_eq_of_bounds hLow (by rw [add_assoc]; exact hUnit.mp h)]
    omega
  · rename_i h
    rw [log_eq_of_bounds (not_lt.mp (mt hUnit.mpr h)) (by rw [add_assoc]; exact hHigh)]
    omega

/-! ## Rounding to double precision -/

/-- The number of double precision nearest to a number that is not negative, with a sign. -/
def nearest (negative : Bool) (q : ℚ) : Double :=
  if q = 0 then .finite negative 0 (-1074)
  else
    let e := max (-1074) (Int.log 2 q - 52)
    let m := roundRat (q / 2 ^ e)
    let m' := if m = twoTo 53 then twoTo 52 else m
    let e' := if m = twoTo 53 then e + 1 else e
    if 971 < e' then .infinite negative else .finite negative m' e'

theorem ofQuotient_eq_nearest (negative : Bool) (n : ℕ) (hd : 0 < d) :
    ofQuotient negative n d = nearest negative (n / d) := by
  have hdPos : (0 : ℚ) < d := by exact_mod_cast hd
  have hZero : (n / d : ℚ) = 0 ↔ n = 0 := by
    rw [div_eq_zero_iff, or_iff_left hdPos.ne', Nat.cast_eq_zero]
  unfold ofQuotient nearest
  simp only [hZero]
  split
  · rfl
  · rename_i hn
    rw [log_div hn hd.ne']
    simp only [roundQuotient_eq_roundRat _ (scaled_snd_pos hd _ _), scaled_fst_div_snd]

/-- The infinities, not-a-number and the finite numbers of double precision, each in its one form. -/
def Sound : Double → Prop
  | .finite _ m e => m < 2 ^ 53 ∧ -1074 ≤ e ∧ e ≤ 971 ∧ (2 ^ 52 ≤ m ∨ e = -1074)
  | _ => True

theorem sound_nearest (negative : Bool) (hq : 0 ≤ q) : (nearest negative q).Sound := by
  unfold nearest
  split
  · exact ⟨by norm_num, le_rfl, by norm_num, .inr rfl⟩
  · rename_i hZero
    extract_lets e m m' e'
    have hPos : 0 < q := hq.lt_of_ne' hZero
    have hUnit := two_zpow_pos e
    have hHigh : m ≤ 2 ^ 53 := by
      apply roundRat_le (div_nonneg hq hUnit.le)
      rw [div_lt_iff₀ hUnit]
      calc q < 2 ^ (Int.log 2 q + 1) := lt_two_zpow_log q
        _ ≤ 2 ^ ((53 : ℤ) + e) := zpow_le_zpow_right₀ (by norm_num) (by omega)
        _ = ((2 ^ 53 : ℕ) : ℚ) * 2 ^ e := by
          rw [zpow_add₀ (by norm_num)]
          norm_num
    have hLow : e ≠ -1074 → 2 ^ 52 ≤ m := by
      intro h
      apply le_roundRat
      rw [le_div_iff₀ hUnit]
      calc ((2 ^ 52 : ℕ) : ℚ) * 2 ^ e = 2 ^ ((52 : ℤ) + e) := by
            rw [zpow_add₀ (by norm_num)]
            norm_num
        _ ≤ 2 ^ Int.log 2 q := zpow_le_zpow_right₀ (by norm_num) (by omega)
        _ ≤ q := two_zpow_log_le hPos
    have hLeast : -1074 ≤ e := le_max_left _ _
    split
    · trivial
    · have hCarry : twoTo 53 = 2 ^ 53 ∧ twoTo 52 = 2 ^ 52 := ⟨rfl, rfl⟩
      change m' < 2 ^ 53 ∧ -1074 ≤ e' ∧ e' ≤ 971 ∧ (2 ^ 52 ≤ m' ∨ e' = -1074)
      unfold m' e' at *
      split_ifs at * <;> omega

theorem nearest_of_sound {s : Bool} {m : ℕ} (h : Sound (.finite s m e)) (hm : m ≠ 0) :
    nearest negative (m * 2 ^ e) = .finite negative m e := by
  obtain ⟨hHigh, hLeast, hGreatest, hLow⟩ := h
  have hPos : (0 : ℚ) < m := by exact_mod_cast Nat.pos_of_ne_zero hm
  have hUnit := two_zpow_pos e
  have hBelow : (m * 2 ^ e : ℚ) < 2 ^ (53 + e) := by
    rw [zpow_add₀ (by norm_num)]
    exact mul_lt_mul_of_pos_right (by exact_mod_cast hHigh) hUnit
  have hLog : max (-1074) (Int.log 2 (m * 2 ^ e : ℚ) - 52) = e := by
    rcases hLow with hLow | rfl
    · have hAbove : (2 : ℚ) ^ (52 + e) ≤ m * 2 ^ e := by
        rw [zpow_add₀ (by norm_num)]
        exact mul_le_mul_of_nonneg_right (by exact_mod_cast hLow) hUnit.le
      rw [log_eq_of_bounds hAbove (by convert hBelow using 2; ring)]
      omega
    · have hLess := (Int.lt_zpow_iff_log_lt (b := 2) (by decide) (mul_pos hPos hUnit)).mp (by exact_mod_cast hBelow)
      omega
  have hCarry : m ≠ twoTo 53 := hHigh.ne
  unfold nearest
  rw [if_neg (mul_pos hPos hUnit).ne', hLog]
  simp only [mul_div_cancel_right₀ _ hUnit.ne', roundRat_natCast, if_neg hCarry]
  rw [if_neg (by omega)]

/-! ## Decimals -/

theorem fraction_snd_pos (m : ℕ) (e : ℤ) : 0 < (fraction m e).2 := by
  unfold fraction
  split
  · exact Nat.one_pos
  · exact twoTo_pos _

theorem fraction_fst_div_snd (m : ℕ) (e : ℤ) : ((fraction m e).1 : ℚ) / (fraction m e).2 = m * 2 ^ e := by
  unfold fraction
  split
  · rename_i h
    obtain ⟨k, rfl⟩ := Int.eq_ofNat_of_zero_le h
    push_cast [cast_twoTo]
    rw [Int.toNat_natCast, zpow_natCast, div_one]
  · rename_i h
    obtain ⟨k, rfl⟩ := Int.exists_eq_neg_ofNat (by omega : e ≤ 0)
    rw [neg_neg, Int.toNat_natCast, cast_twoTo, zpow_neg, zpow_natCast, div_eq_mul_inv]

/-- Whole numbers of at most 53 bits are numbers of double precision. -/
theorem nearest_natCast (negative : Bool) (h : k < 2 ^ 53) :
    ∃ m e, nearest negative k = .finite negative m e ∧ (fraction m e).1 = k * (fraction m e).2 := by
  have hWhole : ∀ (m : ℕ) (e : ℤ), (m * 2 ^ e : ℚ) = k → (fraction m e).1 = k * (fraction m e).2 := by
    intro m e hValue
    have hPos : (0 : ℚ) < (fraction m e).2 := by exact_mod_cast fraction_snd_pos m e
    rw [← fraction_fst_div_snd, div_eq_iff hPos.ne'] at hValue
    exact_mod_cast hValue
  by_cases hZero : k = 0
  · subst hZero
    exact ⟨0, -1074, by simp [nearest], by simp [fraction]⟩
  · -- The mantissa is moved up until it has 53 bits.
    have hLow : 2 ^ k.log2 ≤ k := Nat.log2_self_le hZero
    have hHigh : k < 2 ^ (k.log2 + 1) := Nat.lt_log2_self
    have hLog : k.log2 ≤ 52 := by
      by_contra hLarge
      have hPower : 2 ^ 53 ≤ 2 ^ k.log2 := Nat.pow_le_pow_right (by decide) (by omega)
      omega
    obtain ⟨j, hj⟩ := Nat.exists_eq_add_of_le hLog
    have hValue : ((k * 2 ^ j : ℕ) : ℚ) * 2 ^ (-(j : ℤ)) = k := by
      push_cast
      rw [zpow_neg, zpow_natCast, mul_assoc, mul_inv_cancel₀ (by positivity), mul_one]
    have hPowLow : 2 ^ 52 ≤ k * 2 ^ j := by
      rw [hj, pow_add]
      exact Nat.mul_le_mul_right _ hLow
    have hPowHigh : k * 2 ^ j < 2 ^ 53 := by
      rw [show 53 = k.log2 + 1 + j by omega, pow_add]
      exact Nat.mul_lt_mul_of_pos_right hHigh (Nat.pow_pos (by decide))
    have hSound : Sound (.finite negative (k * 2 ^ j) (-(j : ℤ))) := ⟨hPowHigh, by omega, by omega, .inl hPowLow⟩
    have hNearest : nearest negative ((k * 2 ^ j : ℕ) * 2 ^ (-(j : ℤ))) = .finite negative (k * 2 ^ j) (-(j : ℤ)) :=
      nearest_of_sound hSound (by positivity)
    rw [hValue] at hNearest
    exact ⟨_, _, hNearest, hWhole _ _ hValue⟩

theorem roundQuotient_zero (hd : 0 < d) : roundQuotient 0 d = 0 := by
  simp [roundQuotient, hd]

theorem fraction_zero (e : ℤ) : fraction 0 e = (0, (fraction 0 e).2) := by
  unfold fraction
  split <;> simp

theorem ofQuotient_zero (negative : Bool) (d : ℕ) : ofQuotient negative 0 d = .finite negative 0 (-1074) :=
  if_pos rfl

theorem parts_of_whole {m : ℕ} (h : (fraction m e).1 = k * (fraction m e).2) :
    (Double.finite negative m e).parts = some (if negative then -(k : ℤ) else k, .finite negative 0 (-1074)) := by
  change some ((if negative then -(((fraction m e).1 / (fraction m e).2 : ℕ) : ℤ)
    else ((fraction m e).1 / (fraction m e).2 : ℕ)),
    ofQuotient negative ((fraction m e).1 % (fraction m e).2) (fraction m e).2) = _
  rw [h, Nat.mul_div_cancel _ (fraction_snd_pos m e), Nat.mul_mod_left, ofQuotient_zero]

theorem timesNat_zero (negative : Bool) (e : ℤ) (k : ℕ) :
    (Double.finite negative 0 e).timesNat k = .finite negative 0 (-1074) := by
  rw [timesNat, fraction_zero, Nat.zero_mul, ofQuotient_zero]

theorem round_zero (negative : Bool) (e : ℤ) : (Double.finite negative 0 e).round = some 0 := by
  rw [round, fraction_zero]
  dsimp only
  rw [roundQuotient_zero (fraction_snd_pos 0 e)]
  cases negative <;> rfl

theorem whole_of_toInt? {m : ℕ} {k : ℤ} (h : (Double.finite negative m e).toInt? = some k) :
    (fraction m e).1 = k.natAbs * (fraction m e).2 ∧ (if negative then -(k.natAbs : ℤ) else k.natAbs) = k := by
  rcases hFraction : fraction m e with ⟨n, d⟩
  rw [toInt?, hFraction] at h
  dsimp only at h
  rw [Option.ite_none_right_eq_some, Option.some.injEq] at h
  obtain ⟨hWhole, hValue⟩ := h
  have hQuotient : n / d = k.natAbs := by
    generalize n / d = q at hValue ⊢
    split at hValue <;> omega
  refine ⟨?_, by rwa [hQuotient] at hValue⟩
  rw [← hQuotient]
  exact (Nat.div_mul_cancel (Nat.dvd_of_mod_eq_zero hWhole)).symm

end Double

end Agenda

/-! ## The shortest decimal stands for its number

The decimal that is written for a number of double precision is rounded to that number. The search
keeps only decimals that are, zeros are dropped at the end without a change of value, and where the
search fails the decimal is exact.
-/

namespace Agenda.Double

variable {n d m : ℕ} {e top : ℤ} {negative : Bool} {q : ℚ}

def Decimal.value (x : Decimal) : ℚ :=
  x.digits * 10 ^ x.exponent

theorem nearest_true (q : ℚ) : nearest true q = (nearest false q).negate := by
  unfold nearest
  dsimp only
  split_ifs <;> rfl

theorem abs_roundRat_sub_le (hq : 0 ≤ q) : |(roundRat q : ℚ) - q| ≤ 1 / 2 := by
  have hFloor : (⌊q⌋₊ : ℚ) = q - Int.fract q := by
    rw [natCast_floor_eq_intCast_floor hq]
    exact (Int.self_sub_fract q).symm
  have hLow := Int.fract_nonneg q
  have hHigh := Int.fract_lt_one q
  unfold roundRat
  split_ifs <;> push_cast [hFloor] <;> rw [abs_le] <;> constructor <;> linarith

/-- The value of a finite number. -/
def valueOf (negative : Bool) (m : ℕ) (e : ℤ) : ℚ :=
  (if negative then -(m : ℚ) else m) * 2 ^ e

/-- The number is finite and its value is that far from another one at most. -/
def Near (x : Double) (q r : ℚ) : Prop :=
  ∃ negative m e, x = .finite negative m e ∧ -1074 ≤ e ∧ |valueOf negative m e - q| ≤ r

theorem near_nearest_false (hq : 0 ≤ q) {k : ℤ} (hk : -1021 ≤ k) (hMost : k ≤ 1023) (h : q < 2 ^ k) :
    (nearest false q).Near q (2 ^ (k - 54)) := by
  unfold nearest
  split
  · rename_i hZero
    subst hZero
    exact ⟨false, 0, -1074, rfl, le_rfl, by simp [valueOf, (two_zpow_pos _).le]⟩
  · rename_i hZero
    have hPos : 0 < q := hq.lt_of_ne' hZero
    extract_lets e m m' e'
    have hLog : Int.log 2 q < k := (Int.lt_zpow_iff_log_lt (b := 2) (by decide) hPos).mp (by exact_mod_cast h)
    have hUnit := two_zpow_pos e
    have hExponent : e ≤ k - 53 := by omega
    have hError : |(m : ℚ) * 2 ^ e - q| ≤ 2 ^ (k - 54) := by
      have hRound := abs_roundRat_sub_le (div_nonneg hq hUnit.le)
      have hScaled : (m : ℚ) * 2 ^ e - q = (m - q / 2 ^ e) * 2 ^ e := by
        rw [sub_mul, div_mul_cancel₀ _ hUnit.ne']
      rw [hScaled, abs_mul, abs_of_pos hUnit]
      calc |(m : ℚ) - q / 2 ^ e| * 2 ^ e ≤ 1 / 2 * 2 ^ e := mul_le_mul_of_nonneg_right hRound hUnit.le
        _ ≤ 1 / 2 * 2 ^ (k - 53) := by gcongr; norm_num
        _ = 2 ^ (k - 54) := by
          rw [show k - 53 = k - 54 + 1 by ring, zpow_add_one₀ (by norm_num)]
          ring
    have hSame : (m' : ℚ) * 2 ^ e' = m * 2 ^ e := by
      unfold m' e'
      split
      · rename_i hCarry
        rw [hCarry, cast_twoTo, cast_twoTo, zpow_add_one₀ (by norm_num)]
        ring
      · rfl
    have hBounds : -1074 ≤ e' ∧ e' ≤ 971 := by
      unfold e'
      split_ifs <;> omega
    rw [if_neg (by omega)]
    exact ⟨false, m', e', rfl, hBounds.1, by simpa [valueOf, hSame] using hError⟩

theorem Near.negate {x : Double} {r : ℚ} (h : x.Near q r) : x.negate.Near (-q) r := by
  obtain ⟨negative, m, e, rfl, hLeast, hError⟩ := h
  refine ⟨!negative, m, e, rfl, hLeast, ?_⟩
  have hValue : valueOf (!negative) m e = -valueOf negative m e := by
    cases negative <;> simp [valueOf]
  rwa [hValue, ← neg_add', ← sub_eq_add_neg, abs_neg]

/-- Rounding a number of that size leads no further than half a unit in the last of 53 places. -/
theorem near_nearest {k : ℤ} (hk : -1021 ≤ k) (hMost : k ≤ 1023) (h : |q| < 2 ^ k) :
    (nearest (q < 0) |q|).Near q (2 ^ (k - 54)) := by
  have hNear := near_nearest_false (abs_nonneg q) hk hMost h
  by_cases hSign : q < 0
  · rw [decide_eq_true hSign, nearest_true]
    simpa [abs_of_neg hSign] using hNear.negate
  · rw [decide_eq_false hSign]
    rwa [abs_of_nonneg (not_lt.mp hSign)] at hNear ⊢

theorem near_ofQuotient {i : ℤ} (hd : 0 < d) {k : ℤ} (hk : -1021 ≤ k) (hMost : k ≤ 1023) (h : |(i / d : ℚ)| < 2 ^ k) :
    (ofQuotient (i < 0) i.natAbs d).Near (i / d) (2 ^ (k - 54)) := by
  have hdPos : (0 : ℚ) < d := by exact_mod_cast hd
  have hSize : ((i.natAbs : ℕ) : ℚ) / d = |(i / d : ℚ)| := by
    rw [abs_div, abs_of_pos hdPos, Nat.cast_natAbs, Int.cast_abs]
  have hSign : decide (i < 0) = decide ((i / d : ℚ) < 0) := by
    rw [decide_eq_decide, div_lt_iff₀ hdPos, zero_mul]
    exact_mod_cast Iff.rfl
  rw [ofQuotient_eq_nearest _ _ hd, hSize, hSign]
  exact near_nearest hk hMost h

/-- The least positive number. -/
def leastUnit : ℚ :=
  2 ^ (-1074 : ℤ)

theorem leastUnit_pos : 0 < leastUnit :=
  two_zpow_pos _

theorem units_mul_leastUnit {s : Bool} {m : ℕ} (he : -1074 ≤ e) : (units s m e : ℚ) * leastUnit = valueOf s m e := by
  have hExponent : ((e + 1074).toNat : ℤ) = e + 1074 := Int.toNat_of_nonneg (by omega)
  have hPower : (twoTo (e + 1074).toNat : ℚ) * leastUnit = 2 ^ e := by
    rw [cast_twoTo, ← zpow_natCast, hExponent, leastUnit, ← zpow_add₀ (by norm_num)]
    congr 1
    omega
  unfold units valueOf
  cases s
  · simp only [Bool.false_eq_true, if_false]
    push_cast
    rw [mul_assoc, hPower]
  · simp only [if_true]
    push_cast
    rw [neg_mul, mul_assoc, hPower, neg_mul]

theorem lt_asymm {x y : Double} (h : x.lt y = true) : y.lt x = false := by
  cases x with
  | nan => cases h
  | infinite s =>
    cases y with
    | nan => cases h
    | infinite t => cases s <;> cases t <;> first | rfl | cases h
    | finite t n f =>
      cases s
      · cases h
      · rfl
  | finite s m e =>
    cases y with
    | nan => cases h
    | infinite t =>
      cases t
      · rfl
      · cases h
    | finite t n f => exact decide_eq_false (of_decide_eq_true h).le.not_gt

/-- Numbers that are further apart than their errors keep their order. -/
theorem lt_of_near {x y : Double} {p q r s : ℚ} (hx : x.Near p r) (hy : y.Near q s) (h : p + r + s < q) :
    x.lt y = true := by
  obtain ⟨a, m, e, rfl, he, hx⟩ := hx
  obtain ⟨b, n, f, rfl, hf, hy⟩ := hy
  have hValue : valueOf a m e < valueOf b n f := by
    have hx := (abs_le.mp hx).2
    have hy := (abs_le.mp hy).1
    linarith
  rw [← units_mul_leastUnit he, ← units_mul_leastUnit hf] at hValue
  have hUnits := lt_of_mul_lt_mul_right hValue leastUnit_pos.le
  exact decide_eq_true (by exact_mod_cast hUnits)

theorem inv_twoTo_leastUnit : ((twoTo 1074 : ℕ) : ℚ)⁻¹ = leastUnit := by
  rw [cast_twoTo, leastUnit, zpow_neg, ← zpow_natCast]
  rfl

theorem near_plus {x y : Double} {p q r s : ℚ} {k : ℤ} (hx : x.Near p r) (hy : y.Near q s) (hk : -1021 ≤ k) (hMost : k ≤ 1023)
    (h : |p + q| + (r + s) < 2 ^ k) : (x.plus y).Near (p + q) (r + s + 2 ^ (k - 54)) := by
  obtain ⟨a, m, e, rfl, he, hx⟩ := hx
  obtain ⟨b, n, f, rfl, hf, hy⟩ := hy
  have hSum : |(valueOf a m e + valueOf b n f) - (p + q)| ≤ r + s := by
    rw [add_sub_add_comm]
    exact (abs_add_le _ _).trans (add_le_add hx hy)
  have hExact : ((units a m e + units b n f : ℤ) : ℚ) / (twoTo 1074 : ℕ) = valueOf a m e + valueOf b n f := by
    rw [div_eq_mul_inv, inv_twoTo_leastUnit, Int.cast_add, add_mul, units_mul_leastUnit he, units_mul_leastUnit hf]
  have hSize : |((units a m e + units b n f : ℤ) : ℚ) / (twoTo 1074 : ℕ)| < 2 ^ k := by
    rw [hExact]
    have hTriangle := abs_sub_abs_le_abs_sub (valueOf a m e + valueOf b n f) (p + q)
    linarith
  have hRounded : ∀ z : Double, z.Near ((units a m e + units b n f : ℤ) / (twoTo 1074 : ℕ)) (2 ^ (k - 54)) →
      z.Near (p + q) (r + s + 2 ^ (k - 54)) := by
    rintro z ⟨c, l, g, rfl, hg, hError⟩
    rw [hExact] at hError
    refine ⟨c, l, g, rfl, hg, ?_⟩
    have hTriangle := abs_sub_le (valueOf c l g) (valueOf a m e + valueOf b n f) (p + q)
    linarith
  apply hRounded
  unfold plus
  dsimp only
  split
  · rename_i hZero
    rw [hZero, Int.cast_zero, zero_div]
    exact ⟨_, 0, -1074, rfl, le_rfl, by simp [valueOf, (two_zpow_pos _).le]⟩
  · exact near_ofQuotient (twoTo_pos 1074) hk hMost hSize

theorem near_ofInt {i : ℤ} (h : i.natAbs < 2 ^ 53) : (ofInt i).Near i 0 := by
  have hNearest : ofInt i = nearest (i < 0) (i.natAbs : ℕ) := by
    rw [ofInt, ofQuotient_eq_nearest _ _ one_pos, Nat.cast_one, div_one]
  obtain ⟨m, e, hValue, hWhole⟩ := nearest_natCast (decide (i < 0)) h
  have hSound : (nearest (decide (i < 0)) (i.natAbs : ℕ)).Sound := sound_nearest _ (Nat.cast_nonneg _)
  rw [hValue] at hSound
  have hMagnitude : (m : ℚ) * 2 ^ e = i.natAbs := by
    have hPos : ((fraction m e).2 : ℚ) ≠ 0 := by exact_mod_cast (fraction_snd_pos m e).ne'
    rw [← fraction_fst_div_snd, hWhole, Nat.cast_mul, mul_div_cancel_right₀ _ hPos]
  refine ⟨_, m, e, hNearest.trans hValue, hSound.2.1, le_of_eq (abs_eq_zero.mpr (sub_eq_zero.mpr ?_))⟩
  by_cases hNegative : i < 0
  · rw [valueOf, decide_eq_true hNegative, if_pos rfl, neg_mul, hMagnitude]
    have hAbs : (i.natAbs : ℤ) = -i := by omega
    rw [← Int.cast_natCast, hAbs, Int.cast_neg, neg_neg]
  · rw [valueOf, decide_eq_false hNegative, if_neg Bool.false_ne_true, hMagnitude]
    have hAbs : (i.natAbs : ℤ) = i := by omega
    rw [← Int.cast_natCast, hAbs]

end Agenda.Double
