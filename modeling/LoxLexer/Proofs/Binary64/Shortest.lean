import LoxLexer.Binary64.Basic
import LoxLexer.Proofs.Binary64.Nearest
import LoxLexer.Proofs.Decimal

/-!
# The decimal that a number is written as

A decimal reads back to a finite number when the number's magnitude is the one that it is rounded to
(`toBinary64_eq_abs_iff`).

* `exists_enclosing`: if any decimal with so many places reads back, one of the two that enclose the
  number does, since all between it and the number are rounded alike.
* `shortest_spec`: the search finds the fewest places.
* `shortest_digits_lt`: fewest places are fewest digits, for a number that is not whole.
* `decimal_spec`: the decimal that a number is written as reads back.
-/

namespace LoxLexer

namespace Binary64

/-! ## Whole numbers -/

theorem isWhole_iff_dvd {x : Binary64} : x.isWhole = true ↔ unitsPerOne ∣ x.units := by
  rw [isWhole, beq_iff_eq, Nat.dvd_iff_mod_eq_zero]

/-- What a natural number is rounded to is whole: the number is a multiple of the scale, if that is
not above one, and else any number is whole. -/
theorem isWhole_of_rounds {x : Binary64} {n : ℕ} (h : Rounds (n * unitsPerOne) x.magnitude) :
    x.isWhole = true := by
  obtain ⟨k, r, hm, hr, hk⟩ := exists_scaled x.magnitude
  rw [isWhole_iff_dvd, units_eq_unitsAt, hm, unitsAt_scaled (Nat.le_of_lt hr) hk]
  rw [hm] at h
  unfold unitsPerOne at *
  generalize 1074 = one at *
  rw [Nat.pow_eq] at *
  rcases Nat.le_total one k with hle | hle
  · exact Nat.dvd_mul_left_of_dvd (Nat.pow_dvd_pow 2 hle) r
  · have hscale : 2 ^ one = 2 ^ (one - k) * 2 ^ k := (pow_sub_mul_pow 2 hle).symm
    have hmultiple : (n * (2 ^ one : ℕ) : ℚ) = ((n * 2 ^ (one - k)) * 2 ^ k : ℕ) := by
      rw [hscale]
      push_cast
      ring
    rw [hmultiple] at h
    rw [← Rounds.eq_of_multiple hr hk h, hscale, Nat.mul_assoc]
    exact Nat.dvd_mul_left _ _

theorem abs_value_mul_unitsPerOne (x : Binary64) : |x.value| * unitsPerOne = x.units := by
  rw [← abs_of_pos unitsPerOne_pos, ← abs_mul, value_mul_unitsPerOne, abs_mul, Nat.abs_cast]
  split <;> simp

theorem abs_value_eq_iff {x : Binary64} {n : ℕ} : |x.value| = n ↔ x.units = n * unitsPerOne := by
  rw [← mul_left_inj' unitsPerOne_pos.ne', abs_value_mul_unitsPerOne]
  exact_mod_cast Iff.rfl

theorem isWhole_iff {x : Binary64} : x.isWhole = true ↔ ∃ n : ℕ, |x.value| = n := by
  simp only [isWhole_iff_dvd, abs_value_eq_iff, dvd_iff_exists_eq_mul_left]

/-! ## Reading back -/

section
variable {x : Binary64} (hx : x.isFinite = true)
include hx

theorem isFinite_abs : x.abs.isFinite = true := by
  rw [isFinite_iff_magnitude_lt] at hx ⊢
  rwa [magnitude_abs]

theorem isNearest_abs_iff {q : ℚ} (hq : 0 ≤ q) :
    IsNearest q x.abs ↔ Rounds (q * unitsPerOne) x.magnitude := by
  constructor
  · intro h
    have hrounds := h.rounds hq (isFinite_abs hx)
    rwa [magnitude_abs] at hrounds
  · intro h
    have hnearest := isNearest_of_rounds hq h
    rwa [Nat.min_eq_left (Nat.le_of_lt ((isFinite_iff_magnitude_lt x).1 hx))] at hnearest

/-- A decimal reads back to a magnitude if it is rounded to it. -/
theorem toBinary64_eq_abs_iff (d : Decimal) :
    d.toBinary64 = x.abs ↔ Rounds (d.value * unitsPerOne) x.magnitude := by
  rw [← isNearest_abs_iff hx d.value_nonneg]
  exact ⟨fun h => h ▸ d.isNearest_toBinary64, fun h => h.eq d.value_nonneg d.isNearest_toBinary64⟩

theorem toBinary64_eq_abs_of_value {d : Decimal} (h : d.value * unitsPerOne = x.units) :
    d.toBinary64 = x.abs := by
  rw [toBinary64_eq_abs_iff hx, h, units_eq_unitsAt]
  exact .self _

end

/-! ## The decimals around a number -/

theorem mem_enclosing_iff {x : Binary64} {places : ℕ} {d : Decimal} :
    d ∈ x.enclosing places ↔ d = ⟨x.units * 10 ^ places / unitsPerOne, places⟩ ∨
      d = ⟨x.units * 10 ^ places / unitsPerOne + 1, places⟩ := by
  unfold enclosing
  dsimp only
  split
  · simp
  · simp [or_comm]

theorem value_below_le (x : Binary64) (places : ℕ) :
    (Decimal.mk (x.units * 10 ^ places / unitsPerOne) places).value * unitsPerOne ≤ x.units := by
  have hle := Nat.div_mul_le_self (x.units * 10 ^ places) unitsPerOne
  rw [Decimal.value, div_mul_eq_mul_div, div_le_iff₀ (by positivity)]
  exact_mod_cast hle

theorem le_value_above (x : Binary64) (places : ℕ) : (x.units : ℚ) ≤
    (Decimal.mk (x.units * 10 ^ places / unitsPerOne + 1) places).value * unitsPerOne := by
  have hlt := Nat.lt_mul_div_succ (x.units * 10 ^ places) (Nat.cast_pos.1 unitsPerOne_pos)
  rw [Nat.mul_comm unitsPerOne] at hlt
  rw [Decimal.value, div_mul_eq_mul_div, le_div_iff₀ (by positivity)]
  exact_mod_cast hlt.le

section
variable {x : Binary64} (hx : x.isFinite = true)
include hx

/-- If a decimal reads back, one that encloses the number in as many places does. -/
theorem exists_enclosing {d : Decimal} (h : d.toBinary64 = x.abs) :
    ∃ d' ∈ x.enclosing d.places, d'.toBinary64 = x.abs := by
  obtain ⟨digits, places⟩ := d
  have hmono {m n : ℕ} (hle : m ≤ n) : (Decimal.mk m places).value * unitsPerOne ≤
      (Decimal.mk n places).value * unitsPerOne := by
    refine mul_le_mul_of_nonneg_right ?_ unitsPerOne_pos.le
    unfold Decimal.value
    gcongr
  have hself := Rounds.self x.magnitude
  rw [← units_eq_unitsAt] at hself
  rw [toBinary64_eq_abs_iff hx] at h
  rcases Nat.lt_or_ge (x.units * 10 ^ places / unitsPerOne) digits with hlt | hge
  · refine ⟨_, mem_enclosing_iff.2 (.inr rfl), (toBinary64_eq_abs_iff hx _).2 ?_⟩
    exact hself.convex h (le_value_above x places) (hmono hlt)
  · refine ⟨_, mem_enclosing_iff.2 (.inl rfl), (toBinary64_eq_abs_iff hx _).2 ?_⟩
    exact h.convex hself (hmono hge) (value_below_le x places)

end

/-! ## The fewest places -/

/-- Places are tried from the fewest on. -/
theorem exists_of_findSome?_range {α : Type} {f : ℕ → Option α} {n : ℕ} {a : α}
    (h : (List.range n).findSome? f = some a) : ∃ i, f i = some a ∧ ∀ j < i, f j = none := by
  induction n with
  | zero => simp at h
  | succ n ih =>
    rw [List.range_succ, List.findSome?_append] at h
    cases hn : (List.range n).findSome? f with
    | some b =>
      rw [hn] at h
      exact ih (hn.trans h)
    | none =>
      rw [hn] at h
      refine ⟨n, by simpa using h, fun j hj => ?_⟩
      exact List.findSome?_eq_none_iff.1 hn j (List.mem_range.2 hj)

section
variable {x : Binary64} (hx : x.isFinite = true)
include hx

theorem exactDecimal_toBinary64 : x.exactDecimal.toBinary64 = x.abs := by
  apply toBinary64_eq_abs_of_value hx
  unfold exactDecimal Decimal.value
  rw [unitsPerOne_cast]
  generalize 1074 = n
  have hten : (10 : ℚ) ^ n = 5 ^ n * 2 ^ n := by
    rw [← mul_pow]
    norm_num
  rw [hten, Nat.pow_eq]
  push_cast
  field_simp

/-- **The shortest decimal** reads back, has a place behind the point, and no decimal with fewer
places that has one reads back. -/
theorem shortest_spec : x.shortest.toBinary64 = x.abs ∧ 0 < x.shortest.places ∧
    ∀ d : Decimal, d.toBinary64 = x.abs → 0 < d.places → x.shortest.places ≤ d.places := by
  have hnone {n : ℕ} (h : (x.enclosing (n + 1)).find? (·.toBinary64 == x.abs) = none)
      {d : Decimal} (hd : d.toBinary64 = x.abs) (hplaces : d.places = n + 1) : False := by
    obtain ⟨d', hmem, hd'⟩ := exists_enclosing hx hd
    rw [hplaces] at hmem
    have hne := List.find?_eq_none.1 h d' hmem
    exact hne (beq_iff_eq.2 hd')
  unfold shortest
  cases hsearch : (List.range 1074).findSome? fun n =>
      (x.enclosing (n + 1)).find? (·.toBinary64 == x.abs) with
  | none =>
    exfalso
    have hexact := exactDecimal_toBinary64 hx
    have hplaces : x.exactDecimal.places = 1073 + 1 := rfl
    generalize x.exactDecimal = exact at hexact hplaces
    exact hnone (List.findSome?_eq_none_iff.1 hsearch 1073 (by simp)) hexact hplaces
  | some d =>
    obtain ⟨n, hfind, hfirst⟩ := exists_of_findSome?_range hsearch
    have hplaces : d.places = n + 1 := by
      rcases mem_enclosing_iff.1 (List.mem_of_find?_eq_some hfind) with rfl | rfl <;> rfl
    have hd := List.find?_some hfind
    rw [Option.getD_some, hplaces]
    refine ⟨beq_iff_eq.1 hd, Nat.succ_pos n, fun d' hd' hpos => ?_⟩
    by_contra hlt
    exact hnone (hfirst (d'.places - 1) (by omega)) hd' (by omega)

end

/-! ## The fewest digits -/

section
variable {x : Binary64} (hx : x.isFinite = true) (hwhole : x.isWhole = false)
include hx hwhole

omit hx in
theorem not_rounds_natCast {n : ℕ} : ¬ Rounds (n * unitsPerOne) x.magnitude := by
  intro h
  rw [isWhole_of_rounds h] at hwhole
  cases hwhole

/-- No power of ten above the last place reads back: it is whole, or it has fewer places. -/
theorem not_rounds_power {n : ℕ} (hn : 0 < n) :
    ¬ Rounds (10 ^ n / 10 ^ x.shortest.places * unitsPerOne) x.magnitude := by
  intro h
  rcases Nat.lt_or_ge n x.shortest.places with hlt | hge
  · have hpow : (10 ^ n / 10 ^ x.shortest.places : ℚ) =
        (Decimal.mk 1 (x.shortest.places - n)).value := by
      rw [← pow_sub_mul_pow (10 : ℚ) hlt.le, Decimal.value, Nat.cast_one]
      field_simp
    rw [hpow, ← toBinary64_eq_abs_iff hx] at h
    have hfewer := (shortest_spec hx).2.2 _ h (Nat.sub_pos_of_lt hlt)
    dsimp only at hfewer
    omega
  · have hpow : (10 ^ n / 10 ^ x.shortest.places : ℚ) = (10 ^ (n - x.shortest.places) : ℕ) := by
      rw [← pow_sub_mul_pow (10 : ℚ) hge, mul_div_assoc, div_self (by positivity), mul_one]
      push_cast
      rfl
    rw [hpow] at h
    exact not_rounds_natCast hwhole h

/-- **No decimal with fewer digits reads back** to a number that is not whole: there would be a
power of ten between it and the shortest. -/
theorem shortest_digits_lt {c : ℕ} {e : ℤ} (h : IsNearest (c * 10 ^ e) x.abs) {n : ℕ}
    (hn : 0 < n) (hc : c < 10 ^ n) : x.shortest.digits < 10 ^ n := by
  obtain ⟨places, rfl | rfl⟩ := e.eq_nat_or_neg
  · have hvalue : (c * 10 ^ (places : ℤ) : ℚ) = (c * 10 ^ places : ℕ) := by
      rw [zpow_natCast]
      push_cast
      rfl
    rw [hvalue, isNearest_abs_iff hx (Nat.cast_nonneg _)] at h
    exact (not_rounds_natCast hwhole h).elim
  have hvalue : (c * 10 ^ (-(places : ℤ)) : ℚ) = (Decimal.mk c places).value := by
    rw [zpow_neg, zpow_natCast, ← div_eq_mul_inv, Decimal.value]
  rw [hvalue, isNearest_abs_iff hx (Decimal.value_nonneg _)] at h
  have hplaces : 0 < places := by
    rw [Nat.pos_iff_ne_zero]
    rintro rfl
    rw [Decimal.value, pow_zero, div_one] at h
    exact not_rounds_natCast hwhole h
  obtain ⟨hshortest, -, hfewest⟩ := shortest_spec hx
  have hle := hfewest ⟨c, places⟩ ((toBinary64_eq_abs_iff hx _).2 h) hplaces
  rw [toBinary64_eq_abs_iff hx] at hshortest
  by_contra hlt
  apply not_rounds_power hx hwhole hn
  refine h.convex hshortest ?_ ?_ <;> refine mul_le_mul_of_nonneg_right ?_ unitsPerOne_pos.le
  · have hc : (c : ℚ) ≤ 10 ^ n := by exact_mod_cast hc.le
    have hpow : (10 ^ x.shortest.places : ℚ) ≤ 10 ^ places := by
      exact_mod_cast Nat.pow_le_pow_right (by decide) hle
    exact div_le_div₀ (by positivity) hc (by positivity) hpow
  · have hdigits : (10 ^ n : ℚ) ≤ x.shortest.digits := by exact_mod_cast Nat.le_of_not_lt hlt
    exact div_le_div_of_nonneg_right hdigits (by positivity)

end

/-! ## The decimal -/

section
variable {x : Binary64} (hx : x.isFinite = true)
include hx

/-- **The decimal that a number is written as** reads back to its magnitude, and has a place behind
the point. -/
theorem decimal_spec : x.decimal.toBinary64 = x.abs ∧ 0 < x.decimal.places := by
  unfold decimal
  split
  · next hwhole =>
    refine ⟨toBinary64_eq_abs_of_value hx ?_, Nat.one_pos⟩
    obtain ⟨n, hn⟩ := isWhole_iff.1 hwhole
    rw [abs_value_eq_iff] at hn
    rw [hn, Nat.mul_div_cancel _ (Nat.cast_pos.1 unitsPerOne_pos), Decimal.value]
    push_cast
    ring
  · exact ⟨(shortest_spec hx).1, (shortest_spec hx).2.1⟩

theorem text_eq : x.text = (if x.isNegative then ['-'] else []) ++ x.decimal.text := by
  rw [isFinite_iff_magnitude_lt] at hx
  have hnan : x.isNaN = false := decide_eq_false (Nat.not_lt.2 hx.le)
  have hinfinite : x.isInfinite = false := beq_eq_false_iff_ne.2 hx.ne
  simp [text, hnan, hinfinite]

end

/-- A number is written as its magnitude is. -/
theorem decimal_abs (x : Binary64) : x.abs.decimal = x.decimal := by
  have hunits : x.abs.units = x.units := by
    rw [units_eq_unitsAt, units_eq_unitsAt, magnitude_abs]
  have habs : x.abs.abs = x.abs := by
    rw [abs, magnitude_abs]
    rfl
  unfold decimal isWhole shortest exactDecimal enclosing
  rw [hunits, habs]

end Binary64

end LoxLexer
