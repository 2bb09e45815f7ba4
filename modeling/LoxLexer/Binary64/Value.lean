import LoxLexer.Binary64.Basic
import Mathlib.Algebra.Order.Field.Rat

/-!
# Values of numerals and of binary64 numbers

The rational numbers that texts and bits stand for, and what it is that a number is the nearest to a
rational one.

* `numeralValue`: the number that a numeral denotes, digit by digit.
* `significantDigits`: how many of its digits count.
* `Binary64.value`: the number that finite bits denote, by sign, significand and exponent.
* `Binary64.IsNearest`: no finite number is nearer; of two as near as each other it is the one with
  the even significand; and from halfway beyond the largest finite number on it is infinity.
-/

namespace LoxLexer

/-! ## Numerals -/

def digitValue (c : Char) : ℚ := (c.toNat - '0'.toNat : ℕ)

/-- The value of digits before a point: each counts ten times what it would in the next place. -/
def wholeValue (digits : List Char) : ℚ :=
  digits.foldl (fun value c => 10 * value + digitValue c) 0

/-- The value of digits behind a point: each counts a tenth of what it would in the place before. -/
def fractionValue (digits : List Char) : ℚ :=
  digits.foldr (fun c value => (digitValue c + value) / 10) 0

/-- The number that a numeral denotes. -/
def numeralValue (text : List Char) : ℚ :=
  wholeValue (text.takeWhile (· != '.')) + fractionValue ((text.dropWhile (· != '.')).drop 1)

/-- The number of digits from the first that is not zero on. -/
def significantDigits (text : List Char) : ℕ :=
  ((text.filter Char.isDigit).dropWhile (· == '0')).length

/-- The number that a decimal denotes. -/
def Decimal.value (d : Decimal) : ℚ := d.digits / 10 ^ d.places

/-! ## Binary64 numbers -/

namespace Binary64

/-- The fraction, after its leading one. Numbers of the smallest exponent have no leading one. -/
def significand (x : Binary64) : ℕ := if x.exponent = 0 then x.fraction else leadingOne + x.fraction

/-- The number that finite bits denote. The smallest exponent means what the one above it means. -/
def value (x : Binary64) : ℚ :=
  (if x.isNegative then -1 else 1) * (x.significand * 2 ^ ((max x.exponent 1 : ℕ) - 1075 : ℤ))

/-- The binary64 number `x` is what the rational number `q` is rounded to, if that is not
negative. -/
structure IsNearest (q : ℚ) (x : Binary64) : Prop where
  isNaN : x.isNaN = false
  isNegative : x.isNegative = false
  isInfinite_iff : x.isInfinite = true ↔ 2 ^ 1024 - 2 ^ 970 ≤ q
  /-- No finite number is nearer. -/
  nearest : x.isFinite = true → ∀ y : Binary64, y.isFinite = true →
    |x.value - q| ≤ |y.value - q|
  /-- If another finite number is as near, the significand is even. -/
  even : x.isFinite = true → ∀ y : Binary64, y.isFinite = true →
    |x.value - q| = |y.value - q| → y.value = x.value ∨ x.significand % 2 = 0

end Binary64

/-! ## Values -/

example : numeralValue "012.50".toList = 25 / 2 ∧ significantDigits "012.50".toList = 4 := by
  decide +kernel

/-- The smallest number has no leading one. -/
example : (Binary64.mk 0xBFF8000000000000).value = -3 / 2 ∧
    (Binary64.mk 0x8000000000000001).value = -1 / 2 ^ 1074 := by
  decide +kernel

end LoxLexer
