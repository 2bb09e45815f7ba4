import LoxLexer.Binary64.Basic
import Mathlib.Algebra.Order.Field.Rat
import Mathlib.Order.Monotone.Basic
import Mathlib.Tactic.Linarith
import Mathlib.Tactic.NormNum
import Mathlib.Tactic.Positivity
import Mathlib.Tactic.Ring

/-!
# Rounding to a magnitude

The magnitudes stand in one row, each a number of units (`unitsAt`), and the row goes on beyond
infinity without a gap, so that overflow is no case of its own. `Rounds a m` says that `a` units are
rounded to the magnitude `m`: they lie on the near side of the middle between `m` and any other, or
in the middle and `m` is even.

* `Rounds.eq`: they are rounded to one magnitude.
* `Rounds.convex`: what lies between two numbers that are rounded to the same magnitude is rounded
  to it, too.
* `rounds_nearest`: `nearest` rounds to a magnitude of the row, and gives infinity for all from
  infinity on.
-/

namespace LoxLexer

namespace Binary64

/-! ## The row of magnitudes -/

/-- The number of units in a magnitude. From infinity on it is that of an exponent without bound. -/
def unitsAt (m : ℕ) : ℕ :=
  if m / leadingOne = 0 then m % leadingOne
  else (leadingOne + m % leadingOne) * 2 ^ (m / leadingOne - 1)

@[simp] theorem unitsAt_zero : unitsAt 0 = 0 := by decide

@[simp] theorem unitsAt_one : unitsAt 1 = 1 := by decide

theorem units_eq_unitsAt (x : Binary64) : x.units = unitsAt x.magnitude := rfl

/-- A significand with or without its carry, and the power of two that scales it. -/
theorem unitsAt_scaled {k r : ℕ} (hr : r ≤ 2 * leadingOne) (hk : leadingOne ≤ r ∨ k = 0) :
    unitsAt (k * leadingOne + r) = r * 2 ^ k := by
  have hL : 0 < leadingOne := by decide
  rcases Nat.lt_or_ge r leadingOne with hlt | hge
  · obtain rfl : k = 0 := hk.resolve_left (by omega)
    rw [unitsAt, Nat.zero_mul, Nat.zero_add, Nat.div_eq_of_lt hlt, if_pos rfl,
      Nat.mod_eq_of_lt hlt, pow_zero, Nat.mul_one]
  rcases Nat.lt_or_ge r (2 * leadingOne) with hlt | hge'
  · have hm : k * leadingOne + r = r - leadingOne + leadingOne * (k + 1) := by
      rw [Nat.mul_succ, Nat.mul_comm leadingOne]
      omega
    have hrest : r - leadingOne < leadingOne := by omega
    rw [unitsAt, hm, Nat.add_mul_div_left _ _ hL, Nat.add_mul_mod_self_left,
      Nat.div_eq_of_lt hrest, Nat.mod_eq_of_lt hrest, if_neg (by omega),
      Nat.add_sub_cancel' hge]
    congr 2
    omega
  · obtain rfl : r = 2 * leadingOne := by omega
    have hm : k * leadingOne + 2 * leadingOne = 0 + leadingOne * (k + 2) := by ring
    rw [unitsAt, hm, Nat.add_mul_div_left _ _ hL, Nat.add_mul_mod_self_left, Nat.zero_div,
      Nat.zero_mod, if_neg (by omega), Nat.zero_add, Nat.add_zero, Nat.add_succ_sub_one, pow_succ]
    ring

/-- Every magnitude is a significand, without a carry, and a scale. -/
theorem exists_scaled (m : ℕ) :
    ∃ k r, m = k * leadingOne + r ∧ r < 2 * leadingOne ∧ (leadingOne ≤ r ∨ k = 0) := by
  have hL : 0 < leadingOne := by decide
  have hdiv := Nat.div_add_mod' m leadingOne
  have hmod := Nat.mod_lt m hL
  cases hq : m / leadingOne with
  | zero =>
    rw [hq] at hdiv
    exact ⟨0, m, by omega, by omega, .inr rfl⟩
  | succ k =>
    rw [hq, Nat.succ_mul] at hdiv
    exact ⟨k, leadingOne + m % leadingOne, by omega, by omega, .inl (Nat.le_add_right _ _)⟩

/-- The next magnitude is larger by the scale. -/
theorem unitsAt_succ {k r : ℕ} (hr : r < 2 * leadingOne) (hk : leadingOne ≤ r ∨ k = 0) :
    unitsAt (k * leadingOne + r + 1) = (r + 1) * 2 ^ k := by
  rw [Nat.add_assoc]
  exact unitsAt_scaled hr (hk.imp_left Nat.le_succ_of_le)

theorem strictMono_unitsAt : StrictMono unitsAt := by
  refine strictMono_nat_of_lt_succ fun m => ?_
  obtain ⟨k, r, rfl, hr, hk⟩ := exists_scaled m
  rw [unitsAt_succ hr hk, unitsAt_scaled (Nat.le_of_lt hr) hk]
  exact Nat.mul_lt_mul_of_pos_right (Nat.lt_succ_self r) (Nat.two_pow_pos k)

/-- The next magnitude is larger by the scale, or by more after a carry. -/
theorem le_unitsAt_succ {k r : ℕ} (hr : r ≤ 2 * leadingOne) (hk : leadingOne ≤ r ∨ k = 0) :
    (r + 1) * 2 ^ k ≤ unitsAt (k * leadingOne + r + 1) := by
  rcases Nat.lt_or_ge r (2 * leadingOne) with hlt | hge
  · exact Nat.le_of_eq (unitsAt_succ hlt hk).symm
  · have hm : k * leadingOne + r + 1 = (k + 1) * leadingOne + (leadingOne + 1) := by
      obtain rfl : r = 2 * leadingOne := by omega
      ring
    have hr' : leadingOne + 1 ≤ 2 * leadingOne := by decide
    rw [hm, unitsAt_scaled hr' (.inl (Nat.le_succ _)), pow_succ, Nat.mul_comm (2 ^ k),
      ← Nat.mul_assoc]
    exact Nat.mul_le_mul_right _ (by omega)

/-- The magnitude before is smaller by the scale, or by less before a carry. -/
theorem le_unitsAt_pred {k r : ℕ} (hr : r < 2 * leadingOne) (hk : leadingOne ≤ r ∨ k = 0) {n : ℕ}
    (hn : n + 1 = k * leadingOne + r) : r * 2 ^ k ≤ unitsAt n + 2 ^ k := by
  obtain ⟨k', r', rfl, hr', hk'⟩ := exists_scaled n
  have hsucc := unitsAt_succ hr' hk'
  rw [hn, unitsAt_scaled (Nat.le_of_lt hr) hk] at hsucc
  have hle : k' ≤ k := by
    by_contra hlt
    have : (k + 1) * leadingOne ≤ k' * leadingOne := Nat.mul_le_mul_right _ (by omega)
    rw [Nat.succ_mul] at this
    omega
  rw [hsucc, unitsAt_scaled (Nat.le_of_lt hr') hk', Nat.succ_mul]
  exact Nat.add_le_add_left (Nat.pow_le_pow_right (by decide) hle) _

theorem unitsAt_lt_unitsAt {m n : ℕ} (h : m < n) : (unitsAt m : ℚ) < unitsAt n :=
  Nat.cast_lt.2 (strictMono_unitsAt h)

theorem unitsAt_le_unitsAt {m n : ℕ} (h : m ≤ n) : (unitsAt m : ℚ) ≤ unitsAt n :=
  Nat.cast_le.2 (strictMono_unitsAt.monotone h)

theorem eq_of_unitsAt_eq {m n : ℕ} (h : (unitsAt m : ℚ) = unitsAt n) : m = n :=
  strictMono_unitsAt.injective (Nat.cast_injective h)

/-! ## Rounding -/

/-- So many units are rounded to this magnitude: they are not beyond the middle between it and any
other, and in the middle only if it is even. -/
structure Rounds (a : ℚ) (m : ℕ) : Prop where
  above : ∀ n, m < n →
    2 * a < unitsAt m + unitsAt n ∨ (2 * a = unitsAt m + unitsAt n ∧ m % 2 = 0)
  below : ∀ n, n < m →
    (unitsAt n + unitsAt m : ℚ) < 2 * a ∨ ((unitsAt n + unitsAt m : ℚ) = 2 * a ∧ m % 2 = 0)

namespace Rounds

theorem le_above {a : ℚ} {m n : ℕ} (h : Rounds a m) (hn : m < n) :
    2 * a ≤ unitsAt m + unitsAt n := by
  rcases h.above n hn with h | ⟨h, -⟩ <;> linarith

theorem le_below {a : ℚ} {m n : ℕ} (h : Rounds a m) (hn : n < m) :
    (unitsAt n + unitsAt m : ℚ) ≤ 2 * a := by
  rcases h.below n hn with h | ⟨h, -⟩ <;> linarith

/-- Every magnitude is rounded to itself. -/
theorem self (m : ℕ) : Rounds (unitsAt m) m where
  above n hn := .inl (by linarith [unitsAt_lt_unitsAt hn])
  below n hn := .inl (by linarith [unitsAt_lt_unitsAt hn])

/-- What lies between two numbers that are rounded to one magnitude is rounded to it. -/
theorem convex {a b c : ℚ} {m : ℕ} (ha : Rounds a m) (hb : Rounds b m) (hac : a ≤ c)
    (hcb : c ≤ b) : Rounds c m where
  above n hn := by
    rcases hb.above n hn with h | ⟨h, heven⟩
    · exact .inl (by linarith)
    · rcases lt_or_eq_of_le hcb with hlt | rfl
      · exact .inl (by linarith)
      · exact .inr ⟨h, heven⟩
  below n hn := by
    rcases ha.below n hn with h | ⟨h, heven⟩
    · exact .inl (by linarith)
    · rcases lt_or_eq_of_le hac with hlt | rfl
      · exact .inl (by linarith)
      · exact .inr ⟨h, heven⟩

/-- Of two magnitudes that a number is rounded to neither is the smaller. Both would be even, and
one that is between them would be nearer. -/
theorem not_lt {a : ℚ} {m n : ℕ} (hm : Rounds a m) (hn : Rounds a n) : ¬ m < n := by
  intro hlt
  rcases hm.above n hlt with habove | ⟨habove, hm2⟩
  · linarith [hn.le_below hlt]
  rcases hn.below m hlt with hbelow | ⟨-, hn2⟩
  · linarith
  have hnext : m + 1 < n := by omega
  linarith [hm.le_above (Nat.lt_succ_self m), unitsAt_lt_unitsAt hnext]

/-- **A number is rounded to one magnitude.** -/
theorem eq {a : ℚ} {m n : ℕ} (hm : Rounds a m) (hn : Rounds a n) : m = n :=
  Nat.le_antisymm (Nat.le_of_not_lt (hn.not_lt hm)) (Nat.le_of_not_lt (hm.not_lt hn))

/-- A multiple of the scale of a magnitude is rounded to it only if it is that magnitude. -/
theorem eq_of_multiple {k r j : ℕ} (hr : r < 2 * leadingOne) (hk : leadingOne ≤ r ∨ k = 0)
    (h : Rounds ((j * 2 ^ k : ℕ) : ℚ) (k * leadingOne + r)) : j = r := by
  have hpos := Nat.two_pow_pos k
  have hunits := unitsAt_scaled (Nat.le_of_lt hr) hk
  have hle : j ≤ r := by
    have habove := h.le_above (Nat.lt_succ_self _)
    rw [hunits, unitsAt_succ hr hk] at habove
    have habove : 2 * (j * 2 ^ k) ≤ r * 2 ^ k + (r + 1) * 2 ^ k := by exact_mod_cast habove
    have : 2 * j * 2 ^ k ≤ (2 * r + 1) * 2 ^ k := by linarith
    have := Nat.le_of_mul_le_mul_right this hpos
    omega
  have hge : r ≤ j := by
    rcases Nat.eq_zero_or_pos (k * leadingOne + r) with hzero | hne
    · omega
    obtain ⟨n, hn⟩ := Nat.exists_eq_succ_of_ne_zero (Nat.pos_iff_ne_zero.1 hne)
    have hbelow := h.le_below (n := n) (by omega)
    rw [hunits] at hbelow
    have hbelow : unitsAt n + r * 2 ^ k ≤ 2 * (j * 2 ^ k) := by exact_mod_cast hbelow
    have hpred := le_unitsAt_pred hr hk hn.symm
    have : 2 * r * 2 ^ k ≤ (2 * j + 1) * 2 ^ k := by linarith
    have := Nat.le_of_mul_le_mul_right this hpos
    omega
  exact Nat.le_antisymm hle hge

end Rounds

/-! ## Rounding a quotient -/

/-- A quotient is within half of what it is rounded to, and a half away only from an even number. -/
theorem roundHalfEven_bounds (num : ℕ) {den : ℕ} (hden : 0 < den) :
    (2 * num < (2 * roundHalfEven num den + 1) * den ∨
      (2 * num = (2 * roundHalfEven num den + 1) * den ∧ roundHalfEven num den % 2 = 0)) ∧
    (2 * roundHalfEven num den * den < 2 * num + den ∨
      (2 * roundHalfEven num den * den = 2 * num + den ∧ roundHalfEven num den % 2 = 0)) := by
  have hdiv := Nat.div_add_mod' num den
  have hmod := Nat.mod_lt num hden
  have htwice (r : ℕ) : (2 * r + 1) * den = 2 * (r * den) + den := by ring
  have htwice' (r : ℕ) : 2 * r * den = 2 * (r * den) := by ring
  have hsucc : (num / den + 1) * den = num / den * den + den := Nat.succ_mul _ _
  unfold roundHalfEven
  simp only [htwice, htwice']
  split
  · omega
  split
  · rw [hsucc]
    omega
  · rcases Nat.mod_two_eq_zero_or_one (num / den) with heven | hodd
    · rw [heven, Nat.add_zero]
      omega
    · rw [hodd, hsucc]
      omega

theorem le_roundHalfEven (num den : ℕ) : num / den ≤ roundHalfEven num den := by
  unfold roundHalfEven
  dsimp only
  split
  · exact Nat.le_refl _
  split <;> omega

theorem roundHalfEven_le (num den : ℕ) : roundHalfEven num den ≤ num / den + 1 := by
  unfold roundHalfEven
  dsimp only
  split
  · omega
  split <;> omega

/-- The leading one is even, so a magnitude is even when its significand is. -/
theorem scaled_mod_two (k r : ℕ) : (k * leadingOne + r) % 2 = r % 2 := by
  unfold leadingOne
  omega

/-- Being within half of the scale of a magnitude is being rounded to it. Below a power of two the
scale is half as large, so that what is rounded to one from below is excluded. -/
theorem Rounds.of_scaled {a : ℚ} {k r : ℕ} (hr : r ≤ 2 * leadingOne) (hk : leadingOne ≤ r ∨ k = 0)
    (habove : 2 * a < (2 * r + 1) * 2 ^ k ∨ (2 * a = (2 * r + 1) * 2 ^ k ∧ r % 2 = 0))
    (hbelow : 2 * r * 2 ^ k < 2 * a + 2 ^ k ∨ (2 * r * 2 ^ k = 2 * a + 2 ^ k ∧ r % 2 = 0))
    (hlow : k = 0 ∨ leadingOne * 2 ^ k ≤ a) : Rounds a (k * leadingOne + r) := by
  have hunits : (unitsAt (k * leadingOne + r) : ℚ) = r * 2 ^ k := by
    rw [unitsAt_scaled hr hk]
    push_cast
    rfl
  refine ⟨fun n hn => ?_, fun n hn => ?_⟩
  · have hnext : ((r + 1) * 2 ^ k : ℚ) ≤ unitsAt n := by
      have hle := (le_unitsAt_succ hr hk).trans (strictMono_unitsAt.monotone (Nat.succ_le_of_lt hn))
      exact_mod_cast hle
    rw [scaled_mod_two, hunits]
    rcases habove with h | ⟨h, heven⟩
    · exact .inl (by linarith)
    · rcases lt_or_eq_of_le hnext with hlt | heq
      · exact .inl (by linarith)
      · exact .inr ⟨by linarith, heven⟩
  · rw [scaled_mod_two, hunits]
    by_cases hcarry : leadingOne < r ∨ k = 0
    · have hne : r ≠ 0 := by
        rintro rfl
        rcases hcarry with h | rfl
        · omega
        · simp at hn
      obtain ⟨p, rfl⟩ := Nat.exists_eq_succ_of_ne_zero hne
      have hprev : (unitsAt n : ℚ) ≤ p * 2 ^ k := by
        have hle := strictMono_unitsAt.monotone (show n ≤ k * leadingOne + p by omega)
        rw [unitsAt_scaled (by omega) (hcarry.imp_left Nat.le_of_lt_succ)] at hle
        exact_mod_cast hle
      push_cast at hbelow ⊢
      rcases hbelow with h | ⟨h, heven⟩
      · exact .inl (by linarith)
      · rcases lt_or_eq_of_le hprev with hlt | heq
        · exact .inl (by linarith)
        · exact .inr ⟨by linarith, heven⟩
    · -- The magnitude is a power of two, and what is rounded to it lies above.
      have hlow := hlow.resolve_left (by omega)
      obtain rfl : r = leadingOne := by omega
      have hlt := unitsAt_lt_unitsAt hn
      rw [hunits] at hlt
      exact .inl (by linarith)

/-- Units that are rounded to a significand in their own scale are rounded to its magnitude. -/
theorem rounds_scaled {num den k : ℕ} (hden : 0 < den)
    (hr : roundHalfEven num (den * 2 ^ k) ≤ 2 * leadingOne)
    (hk : leadingOne ≤ roundHalfEven num (den * 2 ^ k) ∨ k = 0)
    (hlow : k = 0 ∨ leadingOne * 2 ^ k * den ≤ num) :
    Rounds (num / den) (k * leadingOne + roundHalfEven num (den * 2 ^ k)) := by
  have hden' : (0 : ℚ) < den := Nat.cast_pos.2 hden
  have hnum : (num / den : ℚ) * den = num := div_mul_cancel₀ _ hden'.ne'
  obtain ⟨habove, hbelow⟩ := roundHalfEven_bounds num (Nat.mul_pos hden (Nat.two_pow_pos k))
  generalize roundHalfEven num (den * 2 ^ k) = r at *
  generalize (num / den : ℚ) = a at hnum ⊢
  -- What is known of the numerator, divided by the denominator.
  refine .of_scaled hr hk (habove.imp (fun h => ?_) fun h => ⟨?_, h.2⟩)
    (hbelow.imp (fun h => ?_) fun h => ⟨?_, h.2⟩) (hlow.imp_right fun h => ?_)
  · have h : (2 * num : ℚ) < (2 * r + 1) * (den * 2 ^ k) := by exact_mod_cast h
    exact lt_of_mul_lt_mul_right (by linarith) hden'.le
  · have h : (2 * num : ℚ) = (2 * r + 1) * (den * 2 ^ k) := by exact_mod_cast h.1
    exact mul_right_cancel₀ hden'.ne' (by linarith)
  · have h : (2 * r * (den * 2 ^ k) : ℚ) < 2 * num + den * 2 ^ k := by exact_mod_cast h
    exact lt_of_mul_lt_mul_right (by linarith) hden'.le
  · have h : (2 * r * (den * 2 ^ k) : ℚ) = 2 * num + den * 2 ^ k := by exact_mod_cast h.1
    exact mul_right_cancel₀ hden'.ne' (by linarith)
  · have h : (leadingOne * 2 ^ k * den : ℚ) ≤ num := by exact_mod_cast h
    exact le_of_mul_le_mul_right (by linarith) hden'

theorem leadingOne_eq : leadingOne = 2 ^ 52 := rfl

/-- The scale leaves a whole number fifty-three bits at most. -/
theorem lt_two_pow_scaleOf (whole : ℕ) : whole < 2 * leadingOne * 2 ^ scaleOf whole := by
  have hexponent : whole.log2 + 1 ≤ 53 + scaleOf whole := by
    unfold scaleOf
    omega
  rw [leadingOne_eq, ← pow_succ', ← pow_add]
  exact Nat.lt_log2_self.trans_le (Nat.pow_le_pow_right (by decide) hexponent)

/-- A whole number that is scaled down keeps fifty-three bits. -/
theorem scaleOf_eq_zero_or_le (whole : ℕ) :
    scaleOf whole = 0 ∨ leadingOne * 2 ^ scaleOf whole ≤ whole := by
  rcases Nat.eq_zero_or_pos (scaleOf whole) with hzero | hpos
  · exact .inl hzero
  have hexponent : 52 + scaleOf whole = whole.log2 := by
    unfold scaleOf at hpos ⊢
    omega
  have hne : whole ≠ 0 := by
    rintro rfl
    exact absurd hpos (by decide)
  rw [leadingOne_eq, ← pow_add, hexponent]
  exact .inr (Nat.log2_self_le hne)

/-- **The nearest number** to a quotient is that of the magnitude that the quotient is rounded to,
or infinity if that is beyond. -/
theorem rounds_nearest (num : ℕ) {den : ℕ} (hden : 0 < den) :
    ∃ m, Rounds (num / den * unitsPerOne) m ∧
      nearest num den = ⟨UInt64.ofNat (min m infinityBits)⟩ := by
  have hscaled : (num / den * unitsPerOne : ℚ) = (num * unitsPerOne : ℕ) / den := by
    push_cast
    ring
  refine ⟨_, ?_, rfl⟩
  rw [hscaled]
  generalize num * unitsPerOne = scaled
  have hlt := lt_two_pow_scaleOf (scaled / den)
  have hscale := scaleOf_eq_zero_or_le (scaled / den)
  generalize scaleOf (scaled / den) = k at *
  have hpow := Nat.two_pow_pos k
  have hquotient : scaled / (den * 2 ^ k) = scaled / den / 2 ^ k :=
    (Nat.div_div_eq_div_mul _ _ _).symm
  have hupper := roundHalfEven_le scaled (den * 2 ^ k)
  have hlower := le_roundHalfEven scaled (den * 2 ^ k)
  rw [hquotient] at hupper hlower
  refine rounds_scaled hden ?_ ?_ ?_
  · exact hupper.trans ((Nat.div_lt_iff_lt_mul hpow).2 hlt)
  · exact hscale.symm.imp_left fun hle => ((Nat.le_div_iff_mul_le hpow).2 hle).trans hlower
  · exact hscale.imp_right fun hle => (Nat.mul_le_mul_right den hle).trans (Nat.div_mul_le_self _ _)

end Binary64

end LoxLexer
