import LoxLexer.Binary64.Basic

/-!
# Bits of binary64 numbers

A number is a sign and a magnitude (`eq_of_magnitude_eq`), and bits below that of the sign are the
magnitude of a number that is not negative (`magnitude_ofNat`, `isNegative_ofNat`). Rounding gives
such bits, and none beyond those of infinity (`isNaN_nearest`).
-/

namespace LoxLexer

namespace Binary64

theorem toNat_ofNat_of_lt {n : Nat} (h : n < signBit) : (UInt64.ofNat n).toNat = n := by
  rw [UInt64.toNat_ofNat']
  exact Nat.mod_eq_of_lt (Nat.lt_trans h (by decide))

theorem magnitude_ofNat {n : Nat} (h : n < signBit) :
    (Binary64.mk (UInt64.ofNat n)).magnitude = n := by
  rw [magnitude, toNat_ofNat_of_lt h]
  exact Nat.mod_eq_of_lt h

theorem isNegative_ofNat {n : Nat} (h : n < signBit) :
    (Binary64.mk (UInt64.ofNat n)).isNegative = false := by
  rw [isNegative, toNat_ofNat_of_lt h]
  exact decide_eq_false (Nat.not_le.2 h)

theorem magnitude_lt_signBit (x : Binary64) : x.magnitude < signBit := Nat.mod_lt _ (by decide)

@[simp] theorem magnitude_abs (x : Binary64) : x.abs.magnitude = x.magnitude :=
  magnitude_ofNat x.magnitude_lt_signBit

@[simp] theorem isNegative_abs (x : Binary64) : x.abs.isNegative = false :=
  isNegative_ofNat x.magnitude_lt_signBit

/-- Sign and magnitude make up the bits. -/
theorem toNat_bits (x : Binary64) :
    x.bits.toNat = (if x.isNegative then signBit else 0) + x.magnitude := by
  have hlt : x.bits.toNat < 2 * signBit := x.bits.toNat_lt
  rw [isNegative, magnitude]
  split
  · next h =>
    have h := of_decide_eq_true h
    rw [Nat.mod_eq_sub_mod h, Nat.mod_eq_of_lt (by omega)]
    omega
  · next h =>
    have h := of_decide_eq_false (Bool.not_eq_true _ ▸ h)
    rw [Nat.mod_eq_of_lt (by omega)]
    omega

theorem eq_of_magnitude_eq {x y : Binary64} (hsign : x.isNegative = y.isNegative)
    (hmagnitude : x.magnitude = y.magnitude) : x = y := by
  obtain ⟨a⟩ := x
  obtain ⟨b⟩ := y
  have h : a.toNat = b.toNat := by
    rw [toNat_bits ⟨a⟩, toNat_bits ⟨b⟩, hsign, hmagnitude]
  rw [UInt64.toNat_inj.1 h]

theorem infinityBits_lt_signBit : infinityBits < signBit := by decide

/-- Rounding goes no further than infinity. -/
theorem isNaN_nearest (num den : Nat) : (nearest num den).isNaN = false := by
  unfold nearest
  dsimp only
  have hle := Nat.min_le_right (scaleOf (num * unitsPerOne / den) * leadingOne +
    roundHalfEven (num * unitsPerOne) (den * Nat.pow 2 (scaleOf (num * unitsPerOne / den))))
    infinityBits
  rw [isNaN, magnitude_ofNat (Nat.lt_of_le_of_lt hle infinityBits_lt_signBit)]
  exact decide_eq_false (Nat.not_lt.2 hle)

end Binary64

end LoxLexer
