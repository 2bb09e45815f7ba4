/-!
# Decimal and binary64 numbers

A decimal numeral is a natural number of digits and a count of places after the point. A binary64
number is its 64 bits: the sign, eleven bits of exponent, fifty-two bits of fraction. Every finite
magnitude is a whole number of units of `2 ^ -1074` (`units`), so that comparing and rounding need
natural numbers only.

* `Decimal.ofText`, `Decimal.text`: reading `[0-9]+` and `[0-9]+.[0-9]+`, and writing the digits out
  in full with the point in its place; neither knows an exponent or a sign.
* `nearest`: the number nearest a quotient, a tie going to the even significand, a magnitude from
  halfway beyond the largest finite one on going to infinity. Because the bits of ascending
  magnitudes are consecutive, a quotient rounded up to the next power of two carries into the
  exponent by itself.
* `equal`: the comparison of the arithmetic standard, by which a NaN equals nothing and both zeros
  are one number.
* `text`: a whole number is written exactly, with one zero after the point. Any other finite number
  is written with the fewest digits that read back to it (`shortest`), and of the decimals with that
  many digits the nearest, an exact tie going up. The notation is positional throughout.

The search for the fewest digits counts places after the point. A number that is not whole has its
leading digit at a fixed place, so fewest places are fewest digits; and if any decimal with a given
number of places reads back, one of the two that enclose the number does.
-/

namespace LoxLexer

/-! ## Decimal numerals -/

/-- The number `digits / 10 ^ places`. -/
structure Decimal where
  digits : Nat
  places : Nat
deriving DecidableEq, Repr

namespace Decimal

/-- The value of a row of digits, zero when there are none. -/
def digitsValue (digits : List Char) : Nat := Nat.ofDigitChars 10 digits 0

/-- Reads the digits before the point and, if there is a point, those after it. -/
def ofText (text : List Char) : Decimal :=
  let whole := text.takeWhile (· != '.')
  let fraction := (text.dropWhile (· != '.')).drop 1
  ⟨digitsValue (whole ++ fraction), fraction.length⟩

/-- Writes a digit or more before the point and `places` digits after it; with no places, no
point. -/
def text (d : Decimal) : List Char :=
  let shown := (Nat.toDigits 10 d.digits).leftpad (d.places + 1) '0'
  let whole := shown.take (shown.length - d.places)
  if d.places = 0 then whole else whole ++ '.' :: shown.drop (shown.length - d.places)

end Decimal

/-- A binary64 number, by its bits. -/
structure Binary64 where
  bits : UInt64
deriving DecidableEq, Repr

namespace Binary64

/-! ## Fields -/

/-- The bit of the sign, above the sixty-three of the magnitude. -/
def signBit : Nat := 0x8000000000000000

/-- The leading one of a significand, above the fifty-two bits of the fraction. -/
def leadingOne : Nat := 0x10000000000000

def magnitude (x : Binary64) : Nat := x.bits.toNat % signBit

def isNegative (x : Binary64) : Bool := signBit ≤ x.bits.toNat

/-- The biased exponent. -/
def exponent (x : Binary64) : Nat := x.magnitude / leadingOne

/-- The bits of the significand after the leading one. -/
def fraction (x : Binary64) : Nat := x.magnitude % leadingOne

/-- The magnitude bits of infinity: the exponent all ones, the fraction zero. -/
def infinityBits : Nat := 2047 * leadingOne

def isFinite (x : Binary64) : Bool := x.magnitude < infinityBits

def isInfinite (x : Binary64) : Bool := x.magnitude == infinityBits

def isNaN (x : Binary64) : Bool := infinityBits < x.magnitude

/-- The number of units `2 ^ -1074` in a finite magnitude. The smallest exponent has no leading
one. -/
def units (x : Binary64) : Nat :=
  if x.exponent = 0 then x.fraction else (leadingOne + x.fraction) * Nat.pow 2 (x.exponent - 1)

/-- One is this many units. -/
def unitsPerOne : Nat := Nat.pow 2 1074

def abs (x : Binary64) : Binary64 := ⟨UInt64.ofNat x.magnitude⟩

/-! ## Comparison -/

/-- A NaN equals nothing, the two zeros equal each other, and all else is compared by its bits. -/
def equal (x y : Binary64) : Bool :=
  !x.isNaN && !y.isNaN && (x == y || (x.magnitude == 0 && y.magnitude == 0))

/-! ## Rounding -/

/-- The quotient `num / den` rounded to a whole number, a half going to the even neighbour. -/
def roundHalfEven (num den : Nat) : Nat :=
  let below := num / den
  let twice := 2 * (num % den)
  if twice < den then below
  else if den < twice then below + 1
  else below + below % 2

/-- The power of two that scales the significand of a magnitude of `whole` units: a significand
holds fifty-three bits. -/
def scaleOf (whole : Nat) : Nat := whole.log2 - 52

/-- The number nearest `num / den`, for a positive `den`. -/
def nearest (num den : Nat) : Binary64 :=
  let scaled := num * unitsPerOne
  let scale := scaleOf (scaled / den)
  let rounded := roundHalfEven scaled (den * Nat.pow 2 scale)
  ⟨UInt64.ofNat (min (scale * leadingOne + rounded) infinityBits)⟩

end Binary64

/-- The binary64 number nearest a decimal. -/
def Decimal.toBinary64 (d : Decimal) : Binary64 := Binary64.nearest d.digits (Nat.pow 10 d.places)

/-! ## Decimals of a number -/

namespace Binary64

/-- The two decimals with this many places that enclose the magnitude, the nearer first and of two
equally near the upper first. -/
def enclosing (x : Binary64) (places : Nat) : List Decimal :=
  let scaled := x.units * Nat.pow 10 places
  let below := scaled / unitsPerOne
  if 2 * (scaled % unitsPerOne) < unitsPerOne then [⟨below, places⟩, ⟨below + 1, places⟩]
  else [⟨below + 1, places⟩, ⟨below, places⟩]

def isWhole (x : Binary64) : Bool := x.units % unitsPerOne == 0

/-- The exact decimal of the magnitude: a unit is `5 ^ 1074 / 10 ^ 1074`. -/
def exactDecimal (x : Binary64) : Decimal := ⟨x.units * Nat.pow 5 1074, 1074⟩

/-- The nearest decimal with the fewest places, one at least, that reads back to the magnitude. With
1074 places the exact decimal is found, so the search never comes back empty. -/
def shortest (x : Binary64) : Decimal :=
  ((List.range 1074).findSome? fun n =>
    (x.enclosing (n + 1)).find? fun d => d.toBinary64 == x.abs).getD x.exactDecimal

/-- The decimal that a finite magnitude is written as. -/
def decimal (x : Binary64) : Decimal :=
  if x.isWhole then ⟨10 * (x.units / unitsPerOne), 1⟩ else x.shortest

/-- The written form. A NaN has no sign. -/
def text (x : Binary64) : List Char :=
  if x.isNaN then "NaN".toList
  else
    let sign := if x.isNegative then ['-'] else []
    if x.isInfinite then sign ++ "inf".toList else sign ++ x.decimal.text

/-! ## Written forms -/

example : text (Decimal.ofText "0.1".toList).toBinary64 = "0.1".toList := by decide +kernel

/-- A whole number is written exactly, however large. -/
example : text ⟨0x44B52D02C7E14AF6⟩ = "99999999999999991611392.0".toList := by decide +kernel

/-- Of two decimals as near as each other the upper is written. -/
example : text ⟨0x3E60000000000000⟩ = "0.000000029802322387695313".toList := by decide +kernel

example : text ⟨0x8000000000000000⟩ = "-0.0".toList := by decide +kernel

end Binary64

end LoxLexer
