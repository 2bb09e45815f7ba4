import LoxLexer.Proofs.Binary64.Shortest
import LoxLexer.Proofs.Decimal
import LoxLexer.Proofs.Token.Equality

/-!
# Values and texts of number tokens

The value of a number token is the number nearest to what its lexeme denotes (`number_nearest`): a
numeral is read as a quotient without rounding, whatever the number of its digits, and the quotient
is rounded once.

A finite number is written as a sign, if it is negative, and a numeral with a point. The numeral
scans to one number token whose value is the number without its sign, and with fewer digits there is
no such numeral (`number_text_read_back`). No two finite numbers are written alike
(`Binary64.eq_of_text_eq`).
-/

namespace LoxLexer

open Binary64

/-! ## Values of numerals -/

/-- **The value of a number token** is the one number nearest to what its lexeme denotes. It is zero
for half a unit and less. -/
theorem number_nearest (source : String) (t : Token) (ht : t ∈ (scan source).tokens)
    (hkind : t.kind = .number) :
    ∃ x : Binary64, t.literal = some (.number x) ∧ IsNumeral t.lexeme.toList ∧
      IsNearest (numeralValue t.lexeme.toList) x ∧
      (∀ y : Binary64, IsNearest (numeralValue t.lexeme.toList) y → y = x) ∧
      (x = ⟨0⟩ ↔ numeralValue t.lexeme.toList ≤ 1 / 2 ^ 1075) := by
  have hwell : t.WellFormed := by
    rcases Token.scanned_of_mem_scan ht with hwell | ⟨line, rfl⟩
    · exact hwell
    · cases hkind
  cases hwell with
  | @number digits line hdigits =>
    have hnearest := (Decimal.ofText digits).isNearest_toBinary64
    have hnonneg := (Decimal.ofText digits).value_nonneg
    rw [← numeralValue_eq] at hnearest hnonneg
    rw [String.toList_ofList]
    exact ⟨_, rfl, hdigits, hnearest, fun y => hnearest.eq hnonneg, hnearest.eq_zero_iff hnonneg⟩
  | mark | keyword | identifier | string => cases hkind

/-- Halfway between two numbers the one with the even significand is the value. -/
theorem number_nearest_halfway :
    let t : Token := ⟨.number, "9007199254740993.0", some (.number ⟨0x4340000000000000⟩), 1⟩
    (t ∈ (scan "-9007199254740993.0").tokens ∧ t.kind = .number) ∧
      ∃ x : Binary64, t.literal = some (.number x) ∧ IsNumeral t.lexeme.toList ∧
        IsNearest (numeralValue t.lexeme.toList) x ∧
        (∀ y : Binary64, IsNearest (numeralValue t.lexeme.toList) y → y = x) ∧
        (x = ⟨0⟩ ↔ numeralValue t.lexeme.toList ≤ 1 / 2 ^ 1075) :=
  have hmem : (⟨.number, "9007199254740993.0", some (.number ⟨0x4340000000000000⟩), 1⟩ : Token) ∈
      (scan "-9007199254740993.0").tokens := by
    decide +kernel
  ⟨⟨hmem, rfl⟩, number_nearest "-9007199254740993.0" _ hmem rfl⟩

/-- A numeral by itself is one token. -/
theorem scan_numeral {digits : List Char} (h : IsNumeral digits) :
    scan (String.ofList digits) =
      ⟨[⟨.number, String.ofList digits, some (.number (Decimal.ofText digits).toBinary64), 1⟩,
        Token.eof 1], []⟩ := by
  have hs : (Segment.number digits).Lexical := .inl h
  rw [scan_eq_ofSegments, String.toList_ofList]
  have hsegments : Segment.segments digits = [.number digits] := Segment.segments_text hs
  rw [hsegments]
  rfl

/-! ## Written numbers -/

/-- A written decimal is a numeral and is read back. -/
theorem scan_decimal_text {d : Decimal} (h : 0 < d.places) :
    scan (String.ofList d.text) =
      ⟨[⟨.number, String.ofList d.text, some (.number d.toBinary64), 1⟩, Token.eof 1], []⟩ := by
  obtain ⟨whole, fraction, htext, hwhole, hfraction, -⟩ := Decimal.text_of_places_pos h
  have hnumeral : IsNumeral d.text := .inr ⟨whole, fraction, hwhole, hfraction, htext⟩
  rw [scan_numeral hnumeral, Decimal.ofText_text h]

/-- **Finite numbers with the same text** are the same. -/
theorem Binary64.eq_of_text_eq {x y : Binary64} (hx : x.isFinite = true) (hy : y.isFinite = true)
    (h : x.text = y.text) : x = y := by
  obtain ⟨hxread, hxplaces⟩ := decimal_spec hx
  obtain ⟨hyread, hyplaces⟩ := decimal_spec hy
  have hsign {z : Binary64} (hz : 0 < z.decimal.places) (rest : List Char) :
      z.decimal.text ≠ '-' :: rest := by
    obtain ⟨whole, fraction, htext, hwhole, -⟩ := Decimal.text_of_places_pos hz
    obtain _ | ⟨c, whole⟩ := whole
    · exact absurd rfl hwhole.ne_nil
    · intro he
      rw [htext] at he
      have hdigit := hwhole.2 c List.mem_cons_self
      rw [(List.cons.inj he).1] at hdigit
      exact absurd hdigit (by decide)
  rw [text_eq hx, text_eq hy] at h
  have hboth : x.isNegative = y.isNegative ∧ x.decimal.text = y.decimal.text := by
    cases hxsign : x.isNegative <;> cases hysign : y.isNegative <;>
      simp only [hxsign, hysign] at h
    · exact ⟨rfl, h⟩
    · exact absurd h (hsign hxplaces _)
    · exact absurd h.symm (hsign hyplaces _)
    · exact ⟨rfl, (List.cons.inj h).2⟩
  have habs : x.abs = y.abs := by
    rw [← hxread, ← hyread, ← Decimal.ofText_text hxplaces, ← Decimal.ofText_text hyplaces, hboth.2]
  refine eq_of_magnitude_eq hboth.1 ?_
  rw [← magnitude_abs x, ← magnitude_abs y, habs]

/-- **A written number is read back** from behind its sign. A whole number is written exactly, and
any other with no more digits than a decimal needs that is read as it. -/
theorem number_text_read_back (x : Binary64) (hx : x.isFinite = true) :
    ∃ u : List Char,
      (Literal.number x).text = String.ofList ((if x.isNegative then ['-'] else []) ++ u) ∧
      (∃ whole fraction, u = whole ++ '.' :: fraction ∧ IsDigits whole ∧ IsDigits fraction) ∧
      scan (String.ofList u) =
        ⟨[⟨.number, String.ofList u, some (.number x.abs), 1⟩, Token.eof 1], []⟩ ∧
      (∀ n : ℕ, |x.value| = n → u = Nat.toDigits 10 n ++ ['.', '0']) ∧
      ((¬ ∃ n : ℕ, |x.value| = n) → ∀ (c : ℕ) (e : ℤ), IsNearest (c * 10 ^ e) x.abs →
        significantDigits u ≤ (Nat.toDigits 10 c).length) ∧
      (Literal.number x.abs).text = String.ofList u ∧
      ∀ y : Binary64, y.isFinite = true → (Literal.number y).text = (Literal.number x).text →
        y = x := by
  obtain ⟨hread, hplaces⟩ := decimal_spec hx
  obtain ⟨whole, fraction, htext, hwhole, hfraction, -⟩ := Decimal.text_of_places_pos hplaces
  refine ⟨x.decimal.text, ?_, ⟨whole, fraction, htext, hwhole, hfraction⟩, ?_, ?_, ?_, ?_, ?_⟩
  · rw [Literal.text, text_eq hx]
  · rw [scan_decimal_text hplaces, hread]
  · intro n hn
    rw [← Decimal.text_whole, decimal, if_pos (isWhole_iff.2 ⟨n, hn⟩), abs_value_eq_iff.1 hn,
      Nat.mul_div_cancel _ (Nat.cast_pos.1 unitsPerOne_pos)]
  · intro hnot c e hc
    have hwhole' : x.isWhole = false := by rwa [← Bool.not_eq_true, isWhole_iff]
    have hdecimal : x.decimal = x.shortest := if_neg (Bool.eq_false_iff.1 hwhole')
    have hpos : 0 < (Nat.toDigits 10 c).length := Nat.length_toDigits_pos
    have hlt := (Nat.length_toDigits_le_iff (by decide) hpos).1 (Nat.le_refl _)
    refine Decimal.significantDigits_text_le hplaces hpos ?_
    rw [hdecimal]
    exact shortest_digits_lt hx hwhole' hc hpos hlt
  · rw [Literal.text, text_eq (isFinite_abs hx), isNegative_abs, decimal_abs]
    rfl
  · intro y hy hsame
    exact eq_of_text_eq hy hx (String.ofList_injective hsame)

/-- A negative power of two: the numbers below it are nearer than those above. -/
theorem number_text_read_back_power :
    let x : Binary64 := ⟨0xBD30000000000000⟩
    x.isFinite = true ∧ ∃ u : List Char,
      (Literal.number x).text = String.ofList ((if x.isNegative then ['-'] else []) ++ u) ∧
      (∃ whole fraction, u = whole ++ '.' :: fraction ∧ IsDigits whole ∧ IsDigits fraction) ∧
      scan (String.ofList u) =
        ⟨[⟨.number, String.ofList u, some (.number x.abs), 1⟩, Token.eof 1], []⟩ ∧
      (∀ n : ℕ, |x.value| = n → u = Nat.toDigits 10 n ++ ['.', '0']) ∧
      ((¬ ∃ n : ℕ, |x.value| = n) → ∀ (c : ℕ) (e : ℤ), IsNearest (c * 10 ^ e) x.abs →
        significantDigits u ≤ (Nat.toDigits 10 c).length) ∧
      (Literal.number x.abs).text = String.ofList u ∧
      ∀ y : Binary64, y.isFinite = true → (Literal.number y).text = (Literal.number x).text →
        y = x :=
  ⟨by decide, number_text_read_back ⟨0xBD30000000000000⟩ (by decide)⟩

/-- Its decimal has sixteen digits. -/
example : (Literal.number ⟨0xBD30000000000000⟩).text = "-0.00000000000005684341886080802" := by
  decide +kernel

end LoxLexer
