import LoxLexer.Binary64.Value
import LoxLexer.Proofs.Binary64.Bits
import LoxLexer.Proofs.Binary64.Rounding
import Mathlib.Tactic.FieldSimp

/-!
# The nearest number

To be rounded to a magnitude is to have the number of that magnitude as the nearest:
`isNearest_of_rounds` and `IsNearest.rounds`. A rational number that is not negative therefore has
one nearest number (`IsNearest.eq`), and it is what `nearest` gives for it as a quotient
(`isNearest_nearest`).
-/

namespace LoxLexer

namespace Binary64

/-! ## Values in units -/

theorem units_eq_significand (x : Binary64) :
    x.units = x.significand * 2 ^ (x.exponent - 1) := by
  rw [units, significand]
  split
  · next h => rw [h, Nat.zero_sub, pow_zero, Nat.mul_one]
  · rfl

theorem unitsPerOne_cast : (unitsPerOne : ℚ) = 2 ^ 1074 := by
  unfold unitsPerOne
  generalize 1074 = n
  rw [Nat.pow_eq, Nat.cast_pow, Nat.cast_ofNat]

theorem unitsPerOne_pos : (0 : ℚ) < unitsPerOne := by
  rw [unitsPerOne_cast]
  positivity

/-- A value in units: the significand of the smallest exponent counts units. -/
theorem value_mul_unitsPerOne (x : Binary64) :
    x.value * unitsPerOne = (if x.isNegative then -1 else 1) * (x.units : ℚ) := by
  have hexponent : ((max x.exponent 1 : ℕ) - 1075 : ℤ) = (x.exponent - 1 : ℕ) - (1074 : ℕ) := by
    omega
  rw [value, units_eq_significand, hexponent, zpow_sub₀ (by norm_num), zpow_natCast, zpow_natCast,
    unitsPerOne_cast]
  push_cast
  field_simp

theorem value_of_not_isNegative {x : Binary64} (h : x.isNegative = false) :
    x.value * unitsPerOne = unitsAt x.magnitude := by
  rw [value_mul_unitsPerOne, h, units_eq_unitsAt]
  simp

/-- Distances in units. -/
theorem abs_sub_mul_unitsPerOne (v q : ℚ) :
    |v - q| * unitsPerOne = |v * unitsPerOne - q * unitsPerOne| := by
  rw [← sub_mul, abs_mul, abs_of_pos unitsPerOne_pos]

theorem significand_mod_two (x : Binary64) : x.significand % 2 = x.magnitude % 2 := by
  rw [significand, fraction, exponent]
  unfold leadingOne
  split <;> omega

/-! ## Distances of magnitudes -/

namespace Rounds

variable {a : ℚ} {m : ℕ} (h : Rounds a m)
include h

/-- No magnitude is nearer than the one that is rounded to. -/
theorem dist_le (n : ℕ) : |unitsAt m - a| ≤ |unitsAt n - a| := by
  rcases Nat.lt_trichotomy m n with hlt | rfl | hlt
  · have hmiddle := h.le_above hlt
    have horder := unitsAt_lt_unitsAt hlt
    have hle : |unitsAt m - a| ≤ unitsAt n - a := abs_le.2 ⟨by linarith, by linarith⟩
    exact hle.trans (le_abs_self _)
  · exact le_refl _
  · have hmiddle := h.le_below hlt
    have horder := unitsAt_lt_unitsAt hlt
    have hle : |unitsAt m - a| ≤ -(unitsAt n - a) := abs_le.2 ⟨by linarith, by linarith⟩
    exact hle.trans (neg_le_abs _)

/-- If another magnitude is as near, the one that is rounded to is even. -/
theorem even_of_dist_eq {n : ℕ} (hn : |unitsAt m - a| = |unitsAt n - a|) : n = m ∨ m % 2 = 0 := by
  rcases abs_eq_abs.1 hn with hsame | hmiddle
  · exact .inl (eq_of_unitsAt_eq (sub_left_injective hsame.symm))
  rcases Nat.lt_trichotomy m n with hlt | rfl | hlt
  · rcases h.above n hlt with hnear | ⟨-, heven⟩
    · linarith
    · exact .inr heven
  · exact .inl rfl
  · rcases h.below n hlt with hnear | ⟨-, heven⟩
    · linarith
    · exact .inr heven

/-- A magnitude that is as near and as odd is the same. Between two others there would be a
nearer. -/
theorem eq_of_dist_eq {n : ℕ} (hn : |unitsAt m - a| = |unitsAt n - a|) (hparity : n % 2 = m % 2) :
    n = m := by
  rcases abs_eq_abs.1 hn with hsame | hmiddle
  · exact eq_of_unitsAt_eq (sub_left_injective hsame.symm)
  rcases Nat.lt_trichotomy m n with hlt | rfl | hlt
  · have hnext := unitsAt_lt_unitsAt (show m + 1 < n by omega)
    linarith [h.le_above (Nat.lt_succ_self m)]
  · rfl
  · have hnext := unitsAt_lt_unitsAt (Nat.lt_succ_self n)
    linarith [h.le_below (show n + 1 < m by omega)]

/-- Half a unit and less is rounded to zero. -/
theorem eq_zero_iff : m = 0 ↔ 2 * a ≤ 1 := by
  have hzero : (unitsAt 0 : ℚ) = 0 := by simp
  have hone : (unitsAt 1 : ℚ) = 1 := by simp
  constructor
  · rintro rfl
    linarith [h.le_above Nat.one_pos]
  · intro hle
    by_contra hne
    have hmono := unitsAt_le_unitsAt (Nat.pos_of_ne_zero hne)
    rcases h.below 0 (Nat.pos_of_ne_zero hne) with hnear | ⟨heq, heven⟩
    · linarith
    · have hm : m = 1 := eq_of_unitsAt_eq (by linarith)
      rw [hm] at heven
      exact absurd heven (by decide)

end Rounds

/-! ## Infinity -/

/-- Halfway between the largest finite magnitude and infinity. -/
theorem overflow_middle :
    (unitsAt (infinityBits - 1) + unitsAt infinityBits : ℚ) =
      2 * ((2 ^ 1024 - 2 ^ 970) * unitsPerOne) := by
  have hlast : infinityBits - 1 = 2045 * leadingOne + (2 * leadingOne - 1) := by decide
  have hnext : infinityBits = 2046 * leadingOne + leadingOne := by decide
  have hone : (leadingOne : ℚ) = 2 ^ 52 := by norm_num [leadingOne]
  have hlast' : ((2 * leadingOne - 1 : ℕ) : ℚ) = 2 ^ 53 - 1 := by norm_num [leadingOne]
  have hone' : (2 ^ 1024 : ℚ) = 2 ^ 970 * 2 ^ 54 := by rw [← pow_add]
  have hscale : (2 ^ 2045 : ℚ) = 2 ^ 970 * 2 ^ 1074 * 2 := by rw [← pow_add, ← pow_succ]
  have hscale' : (2 ^ 2046 : ℚ) = 2 ^ 970 * 2 ^ 1074 * 2 * 2 := by rw [pow_succ, hscale]
  rw [hlast, unitsAt_scaled (by decide) (.inl (by decide)), hnext,
    unitsAt_scaled (by decide) (.inl (by decide)), unitsPerOne_cast, Nat.cast_mul, Nat.cast_mul,
    Nat.cast_pow, Nat.cast_pow, Nat.cast_ofNat, hone, hlast', hone', hscale, hscale']
  generalize (2 ^ 970 : ℚ) = step
  generalize (2 ^ 1074 : ℚ) = one
  ring

theorem infinityBits_pred_lt : infinityBits - 1 < infinityBits := by decide

/-- The largest finite magnitude is odd, so what is halfway beyond it goes to infinity. -/
theorem Rounds.infinityBits_le_iff {q : ℚ} {m : ℕ} (h : Rounds (q * unitsPerOne) m) :
    infinityBits ≤ m ↔ 2 ^ 1024 - 2 ^ 970 ≤ q := by
  have hmiddle := overflow_middle
  generalize (2 ^ 1024 - 2 ^ 970 : ℚ) = bound at *
  constructor
  · intro hle
    have hbelow := h.le_below (infinityBits_pred_lt.trans_le hle)
    have hmono := unitsAt_le_unitsAt hle
    exact le_of_mul_le_mul_right (by linarith) unitsPerOne_pos
  · intro hq
    by_contra hlt
    have hle : m ≤ infinityBits - 1 := Nat.le_pred_of_lt (Nat.lt_of_not_le hlt)
    have hscaled := mul_le_mul_of_nonneg_right hq unitsPerOne_pos.le
    have hmono := unitsAt_le_unitsAt hle
    rcases h.above infinityBits (Nat.lt_of_not_le hlt) with hnear | ⟨heq, heven⟩
    · linarith
    · have hlast : m = infinityBits - 1 := eq_of_unitsAt_eq (by linarith)
      rw [hlast] at heven
      exact absurd heven (by decide)

/-! ## The nearest number -/

/-- A sign does not bring a number nearer to one that is not negative. -/
theorem dist_unitsAt_le {a : ℚ} (ha : 0 ≤ a) (y : Binary64) :
    |unitsAt y.magnitude - a| ≤ |y.value * unitsPerOne - a| := by
  have hunits : (0 : ℚ) ≤ unitsAt y.magnitude := Nat.cast_nonneg _
  cases hsign : y.isNegative with
  | false => rw [value_of_not_isNegative hsign]
  | true =>
    rw [value_mul_unitsPerOne, hsign, units_eq_unitsAt, if_pos rfl]
    refine abs_le.2 ⟨?_, ?_⟩ <;> linarith [neg_le_abs (-1 * (unitsAt y.magnitude : ℚ) - a)]

theorem isFinite_iff_magnitude_lt (x : Binary64) : x.isFinite = true ↔ x.magnitude < infinityBits :=
  decide_eq_true_iff

theorem isFinite_of_not {x : Binary64} (hnan : x.isNaN = false) (hinfinite : x.isInfinite = false) :
    x.isFinite = true := by
  rw [isFinite_iff_magnitude_lt]
  rw [isNaN, decide_eq_false_iff_not] at hnan
  rw [isInfinite, beq_eq_false_iff_ne] at hinfinite
  omega

/-- A number that is as near as the magnitude that is rounded to has that value, or the magnitude is
even: with a sign it would be as near on the other side of zero only if both are zero. -/
theorem Rounds.value_eq_or_even {a : ℚ} (ha : 0 ≤ a) {m : ℕ} (h : Rounds a m) {y : Binary64}
    (hy : |unitsAt m - a| = |y.value * unitsPerOne - a|) :
    y.value * unitsPerOne = unitsAt m ∨ m % 2 = 0 := by
  have hdist := le_antisymm (h.dist_le y.magnitude) (hy ▸ dist_unitsAt_le ha y)
  rcases h.even_of_dist_eq hdist with hm | heven
  · cases hsign : y.isNegative with
    | false => exact .inl (by rw [value_of_not_isNegative hsign, hm])
    | true =>
      rw [value_mul_unitsPerOne, hsign, units_eq_unitsAt, if_pos rfl, hm] at hy
      have hunits : (0 : ℚ) ≤ unitsAt m := Nat.cast_nonneg _
      have hzero : m = 0 := by
        rcases abs_eq_abs.1 hy with hside | hside
        · have hzero : (unitsAt 0 : ℚ) = 0 := by simp
          exact eq_of_unitsAt_eq (by linarith)
        · exact h.eq_zero_iff.2 (by linarith)
      exact .inr (by rw [hzero])
  · exact .inr heven

/-- The number of the magnitude that is rounded to is the nearest. -/
theorem isNearest_of_rounds {q : ℚ} (hq : 0 ≤ q) {m : ℕ} (h : Rounds (q * unitsPerOne) m) :
    IsNearest q ⟨UInt64.ofNat (min m infinityBits)⟩ := by
  have hlt : min m infinityBits < signBit :=
    Nat.lt_of_le_of_lt (Nat.min_le_right _ _) infinityBits_lt_signBit
  have hmagnitude := magnitude_ofNat hlt
  have hsign := isNegative_ofNat hlt
  generalize (⟨UInt64.ofNat (min m infinityBits)⟩ : Binary64) = x at *
  have ha : 0 ≤ q * unitsPerOne := mul_nonneg hq unitsPerOne_pos.le
  have hfinite (hx : x.isFinite = true) : x.magnitude = m := by
    rw [isFinite_iff_magnitude_lt] at hx
    omega
  have hvalue (hx : x.isFinite = true) : x.value * unitsPerOne = unitsAt m := by
    rw [value_of_not_isNegative hsign, hfinite hx]
  refine ⟨?_, hsign, ?_, fun hx y _ => ?_, fun hx y _ heq => ?_⟩
  · rw [isNaN, hmagnitude]
    exact decide_eq_false (Nat.not_lt.2 (Nat.min_le_right _ _))
  · rw [← h.infinityBits_le_iff, isInfinite, hmagnitude, beq_iff_eq]
    omega
  · refine le_of_mul_le_mul_right ?_ unitsPerOne_pos
    rw [abs_sub_mul_unitsPerOne, abs_sub_mul_unitsPerOne, hvalue hx]
    exact (h.dist_le y.magnitude).trans (dist_unitsAt_le ha y)
  · have heq : |x.value - q| * unitsPerOne = |y.value - q| * unitsPerOne := by rw [heq]
    rw [abs_sub_mul_unitsPerOne, abs_sub_mul_unitsPerOne, hvalue hx] at heq
    rw [significand_mod_two, hfinite hx]
    refine (h.value_eq_or_even ha heq).imp_left fun hy => ?_
    exact mul_right_cancel₀ unitsPerOne_pos.ne' (hy.trans (hvalue hx).symm)

/-- **The nearest number of a quotient** is what `nearest` gives. -/
theorem isNearest_nearest (num : ℕ) {den : ℕ} (hden : 0 < den) :
    IsNearest (num / den) (nearest num den) := by
  obtain ⟨m, hrounds, heq⟩ := rounds_nearest num hden
  rw [heq]
  exact isNearest_of_rounds (by positivity) hrounds

theorem exists_rounds {q : ℚ} (hq : 0 ≤ q) : ∃ m, Rounds (q * unitsPerOne) m := by
  obtain ⟨m, hrounds, -⟩ := rounds_nearest q.num.toNat q.den_pos
  have hnum : ((q.num.toNat : ℕ) : ℚ) = q.num := by
    exact_mod_cast Int.toNat_of_nonneg (Rat.num_nonneg.2 hq)
  rw [hnum, Rat.num_div_den] at hrounds
  exact ⟨m, hrounds⟩

namespace IsNearest

variable {q : ℚ} {x : Binary64} (hq : 0 ≤ q) (h : IsNearest q x)
include hq h

/-- A finite number is the nearest only to what is rounded to its magnitude. -/
theorem rounds (hx : x.isFinite = true) : Rounds (q * unitsPerOne) x.magnitude := by
  obtain ⟨m, hrounds⟩ := exists_rounds hq
  have hz := isNearest_of_rounds hq hrounds
  have hlt : m < infinityBits := by
    rw [← Nat.not_le, hrounds.infinityBits_le_iff, ← h.isInfinite_iff, isInfinite, beq_iff_eq]
    exact ((isFinite_iff_magnitude_lt x).1 hx).ne
  rw [Nat.min_eq_left hlt.le] at hz
  have hmagnitude := magnitude_ofNat (hlt.trans infinityBits_lt_signBit)
  generalize (⟨UInt64.ofNat m⟩ : Binary64) = z at hz hmagnitude
  have hzfinite : z.isFinite = true := by rwa [isFinite_iff_magnitude_lt, hmagnitude]
  have hdist := le_antisymm (hz.nearest hzfinite x hx) (h.nearest hx z hzfinite)
  have hunits : |(unitsAt m : ℚ) - q * unitsPerOne| =
      |(unitsAt x.magnitude : ℚ) - q * unitsPerOne| := by
    rw [← value_of_not_isNegative h.isNegative, ← hmagnitude,
      ← value_of_not_isNegative hz.isNegative, ← abs_sub_mul_unitsPerOne,
      ← abs_sub_mul_unitsPerOne, hdist]
  suffices hm : x.magnitude = m by rwa [hm]
  rcases hrounds.even_of_dist_eq hunits with hm | heven
  · exact hm
  rcases h.even hx z hzfinite hdist.symm with hvalue | heven'
  · have hvalue : z.value * unitsPerOne = x.value * unitsPerOne := by rw [hvalue]
    rw [value_of_not_isNegative h.isNegative, value_of_not_isNegative hz.isNegative,
      hmagnitude] at hvalue
    exact (eq_of_unitsAt_eq hvalue).symm
  · rw [significand_mod_two] at heven'
    exact hrounds.eq_of_dist_eq hunits (heven'.trans heven.symm)

/-- **A number has one nearest number.** -/
theorem eq {y : Binary64} (hy : IsNearest q y) : y = x := by
  refine eq_of_magnitude_eq (hy.isNegative.trans h.isNegative.symm) ?_
  cases hinfinite : x.isInfinite with
  | true =>
    have hyinfinite := hy.isInfinite_iff.2 (h.isInfinite_iff.1 hinfinite)
    rw [isInfinite, beq_iff_eq] at hinfinite hyinfinite
    rw [hinfinite, hyinfinite]
  | false =>
    have hyinfinite : y.isInfinite = false := by
      rw [Bool.eq_false_iff, Ne, hy.isInfinite_iff, ← h.isInfinite_iff, hinfinite]
      decide
    exact (hy.rounds hq (isFinite_of_not hy.isNaN hyinfinite)).eq
      (h.rounds hq (isFinite_of_not h.isNaN hinfinite))

/-- The nearest number is zero for half a unit and less. -/
theorem eq_zero_iff : x = ⟨0⟩ ↔ q ≤ 1 / 2 ^ 1075 := by
  obtain ⟨m, hrounds⟩ := exists_rounds hq
  have hlt : min m infinityBits < signBit :=
    Nat.lt_of_le_of_lt (Nat.min_le_right _ _) infinityBits_lt_signBit
  have hmagnitude := magnitude_ofNat hlt
  rw [h.eq hq (isNearest_of_rounds hq hrounds)] at hmagnitude
  have hzero : x = ⟨0⟩ ↔ m = 0 := by
    have hpos : 0 < infinityBits := by decide
    have hx : x = ⟨0⟩ ↔ x.magnitude = 0 := by
      constructor
      · intro hx
        rw [hx]
        decide
      · intro hx
        refine eq_of_magnitude_eq (h.isNegative.trans ?_) (hx.trans ?_) <;> decide
    rw [hx, hmagnitude]
    omega
  have hhalf : 2 * (q * unitsPerOne) ≤ 1 ↔ q ≤ 1 / 2 ^ 1075 := by
    have hscale : (0 : ℚ) < 2 ^ 1075 := by positivity
    rw [le_div_iff₀ hscale, unitsPerOne_cast, pow_succ (2 : ℚ) 1074]
    generalize (2 ^ 1074 : ℚ) = one
    constructor <;> intro hle <;> linarith
  rw [hzero, hrounds.eq_zero_iff, hhalf]

end IsNearest

end Binary64

/-! ## Decimals -/

namespace Decimal

open Binary64

theorem value_nonneg (d : Decimal) : 0 ≤ d.value := by
  unfold value
  positivity

/-- A decimal is read as the number nearest to it. -/
theorem isNearest_toBinary64 (d : Decimal) : IsNearest d.value d.toBinary64 := by
  have hden : 0 < Nat.pow 10 d.places := Nat.pow_pos (by decide)
  have h := isNearest_nearest d.digits hden
  rw [value]
  exact_mod_cast h

end Decimal

end LoxLexer
