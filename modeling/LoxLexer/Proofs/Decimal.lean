import LoxLexer.Binary64.Value
import LoxLexer.Proofs.Alphabet
import LoxLexer.Segment.Grammar
import Mathlib.Tactic.FieldSimp

/-!
# Decimals and their texts

* `numeralValue_eq`: a decimal that is read has the value of its text, whatever the text.
* `exists_text_eq`: a decimal with places is written as digits, a point and as many digits as it has
  places. It is read back from that (`ofText_text`).
-/

namespace LoxLexer

/-! ## Values of digits -/

theorem digitsValue_append (front back : List Char) :
    Decimal.digitsValue (front ++ back) =
      10 ^ back.length * Decimal.digitsValue front + Decimal.digitsValue back := by
  simp only [Decimal.digitsValue]
  rw [Nat.ofDigitChars_append, Nat.ofDigitChars_eq_ofDigitChars_zero]

theorem wholeValue_eq (digits : List Char) : wholeValue digits = Decimal.digitsValue digits := by
  have hfold (start : ℕ) : digits.foldl (fun value c => 10 * value + digitValue c) (start : ℚ) =
      Nat.ofDigitChars 10 digits start := by
    induction digits generalizing start with
    | nil => simp
    | cons c digits ih =>
      rw [List.foldl_cons, Nat.ofDigitChars_cons, ← ih, digitValue]
      push_cast
      rfl
  exact_mod_cast hfold 0

theorem fractionValue_eq (digits : List Char) :
    fractionValue digits = Decimal.digitsValue digits / 10 ^ digits.length := by
  induction digits with
  | nil => simp [fractionValue, Decimal.digitsValue]
  | cons c digits ih =>
    have hcons : Decimal.digitsValue (c :: digits) =
        10 ^ digits.length * (c.toNat - '0'.toNat) + Decimal.digitsValue digits := by
      have hone : Decimal.digitsValue [c] = c.toNat - '0'.toNat := by
        simp [Decimal.digitsValue, Nat.ofDigitChars_cons]
      rw [← hone, ← digitsValue_append, List.singleton_append]
    have hfold : fractionValue (c :: digits) = (digitValue c + fractionValue digits) / 10 := rfl
    rw [hfold, ih, hcons, digitValue, List.length_cons, pow_succ]
    push_cast
    field_simp

/-- **The decimal that is read** from a text has the value of the text. -/
theorem numeralValue_eq (text : List Char) : numeralValue text = (Decimal.ofText text).value := by
  rw [numeralValue, wholeValue_eq, fractionValue_eq, Decimal.value, Decimal.ofText,
    digitsValue_append]
  push_cast
  field_simp

/-! ## Texts -/

namespace Decimal

theorem text_of_places_pos {d : Decimal} (h : 0 < d.places) :
    ∃ whole fraction, d.text = whole ++ '.' :: fraction ∧ IsDigits whole ∧ IsDigits fraction ∧
      fraction.length = d.places ∧
      whole ++ fraction = (Nat.toDigits 10 d.digits).leftpad (d.places + 1) '0' := by
  have hdigits : ∀ c ∈ (Nat.toDigits 10 d.digits).leftpad (d.places + 1) '0', c.isDigit = true := by
    intro c hc
    rcases List.mem_append.1 hc with hc | hc
    · rw [List.eq_of_mem_replicate hc]
      decide
    · exact Nat.isDigit_of_mem_toDigits (by decide) (by decide) hc
  have hlength : d.places + 1 ≤ ((Nat.toDigits 10 d.digits).leftpad (d.places + 1) '0').length := by
    rw [List.length_leftpad]
    exact Nat.le_max_left _ _
  rw [text, if_neg h.ne']
  generalize (Nat.toDigits 10 d.digits).leftpad (d.places + 1) '0' = shown at *
  refine ⟨_, _, rfl, ⟨?_, fun c hc => hdigits c (List.mem_of_mem_take hc)⟩,
    ⟨?_, fun c hc => hdigits c (List.mem_of_mem_drop hc)⟩, ?_, List.take_append_drop _ _⟩
  · apply List.ne_nil_of_length_pos
    rw [List.length_take]
    omega
  · apply List.ne_nil_of_length_pos
    rw [List.length_drop]
    omega
  · rw [List.length_drop]
    omega

theorem digitsValue_leftpad (n m : ℕ) :
    digitsValue ((Nat.toDigits 10 n).leftpad m '0') = n := by
  rw [List.leftpad, digitsValue, Nat.ofDigitChars_append, Nat.ofDigitChars_replicate_zero,
    Nat.mul_zero, Nat.ofDigitChars_ten_toDigits]

/-- A text of digits, a point and digits is read as all its digits. -/
theorem ofText_append {whole fraction : List Char} (h : IsDigits whole) :
    ofText (whole ++ '.' :: fraction) = ⟨digitsValue (whole ++ fraction), fraction.length⟩ := by
  have hpoint : ∀ c ∈ whole, (c != '.') = true := by
    apply forall_bne_of_not_mem
    intro hmem
    exact absurd (h.2 _ hmem) (by decide)
  have hstops : Stops (· != '.') ('.' :: fraction) := stops_cons.2 (by decide)
  rw [ofText, takeWhile_append_of_stops hpoint hstops, dropWhile_append_of_stops hpoint hstops]
  rfl

/-- **A decimal is read back** from its text, if that has a point. -/
theorem ofText_text {d : Decimal} (h : 0 < d.places) : ofText d.text = d := by
  obtain ⟨whole, fraction, htext, hwhole, -, hlength, happend⟩ := text_of_places_pos h
  rw [htext, ofText_append hwhole, happend, digitsValue_leftpad, hlength]

/-- A whole number is written with one zero behind the point. -/
theorem text_whole (n : ℕ) : text ⟨10 * n, 1⟩ = Nat.toDigits 10 n ++ ['.', '0'] := by
  rcases Nat.eq_zero_or_pos n with rfl | hn
  · decide
  have happend : Nat.toDigits 10 (10 * n) = Nat.toDigits 10 n ++ ['0'] := by
    have h := Nat.toDigits_append_toDigits (b := 10) (d := 0) (by decide) hn (by decide)
    rw [Nat.toDigits_zero, Nat.add_zero] at h
    exact h.symm
  have hpos : 0 < (Nat.toDigits 10 n).length := Nat.length_toDigits_pos
  have hpad : 1 + 1 - ((Nat.toDigits 10 n).length + 1) = 0 := by omega
  simp [text, happend, List.leftpad, hpad]

/-- The zeros that a number is padded with are not significant. -/
theorem significantDigits_text_le {d : Decimal} (h : 0 < d.places) {n : ℕ} (hn : 0 < n)
    (hd : d.digits < 10 ^ n) : significantDigits d.text ≤ n := by
  obtain ⟨whole, fraction, htext, hwhole, hfraction, -, happend⟩ := text_of_places_pos h
  have hfilter : d.text.filter Char.isDigit = whole ++ fraction := by
    have hpoint : ('.' :: fraction).filter Char.isDigit = fraction.filter Char.isDigit := by
      simp
    rw [htext, List.filter_append, hpoint, List.filter_eq_self.2 hwhole.2,
      List.filter_eq_self.2 hfraction.2]
  have hzeros : ∀ c ∈ List.replicate (d.places + 1 - (Nat.toDigits 10 d.digits).length) '0',
      (c == '0') = true := fun c hc => beq_iff_eq.2 (List.eq_of_mem_replicate hc)
  rw [significantDigits, hfilter, happend, List.leftpad, List.dropWhile_append_of_pos hzeros]
  exact (List.dropWhile_sublist _).length_le.trans
    ((Nat.length_toDigits_le_iff (by decide) hn).2 hd)

end Decimal

end LoxLexer
