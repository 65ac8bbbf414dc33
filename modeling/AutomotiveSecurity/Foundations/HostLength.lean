import Mathlib

/-!
# Lengths between {lit}`size_t` and {lit}`int`

A C program that hands a {lit}`size_t` length to an interface taking an {lit}`int` keeps the
low 32 bits of it and reads them as signed.  Lengths that come back as {lit}`int` are
sign-extended on the way to {lit}`size_t`.

Main results:

- Theorem {lit}`sizeToInt_lt_zero_iff`: which lengths arrive negative.
- Theorem {lit}`toNatClampNeg_sizeToInt`: the others arrive modulo {lit}`2 ^ 32`.
- Theorem {lit}`intToSize_sizeToInt`: a length up to {lit}`INT_MAX` comes back unchanged.

Current gaps:

- Only the 64-bit {lit}`size_t` and the 32-bit {lit}`int` are covered.
-/

namespace AutomotiveSecurity.HostLength

/-- C {lit}`(int)n` for a {lit}`size_t`. -/
def sizeToInt (n : UInt64) : Int32 :=
  n.toUInt32.toInt32

/-- C {lit}`(size_t)n` for an {lit}`int`. -/
def intToSize (n : Int32) : UInt64 :=
  n.toInt64.toUInt64

/-- The low 32 bits of a {lit}`size_t`. -/
def low32 (n : UInt64) : Nat :=
  n.toNat % 2 ^ 32

theorem low32_le (n : UInt64) : low32 n ≤ n.toNat :=
  Nat.mod_le _ _

/-- The low 32 bits are the whole length, if it fits in them. -/
theorem low32_of_lt {n : UInt64} (hlt : n.toNat < 2 ^ 32) : low32 n = n.toNat :=
  Nat.mod_eq_of_lt hlt

theorem sizeToInt_eq_ofNat (n : UInt64) : sizeToInt n = Int32.ofNat (low32 n) := by
  have hlow : n.toUInt32 = UInt32.ofNat (low32 n) := by
    apply UInt32.toNat.inj
    rw [UInt64.toNat_toUInt32, UInt32.toNat_ofNat', low32]
    omega
  rw [sizeToInt, hlow, UInt32.toInt32_ofNat']

/-- A length whose low 32 bits stay below {lit}`2 ^ 31` arrives as these bits. -/
theorem toInt_sizeToInt {n : UInt64} (hlow : low32 n < 2 ^ 31) :
    (sizeToInt n).toInt = low32 n := by
  rw [sizeToInt_eq_ofNat, Int32.toInt_ofNat_of_lt hlow]

/-- A length arrives negative exactly if its low 32 bits reach {lit}`2 ^ 31`. -/
theorem sizeToInt_lt_zero_iff {n : UInt64} : sizeToInt n < 0 ↔ 2 ^ 31 ≤ low32 n := by
  rw [Int32.lt_iff_toInt_lt, Int32.toInt_zero]
  by_cases hlow : low32 n < 2 ^ 31
  · rw [toInt_sizeToInt hlow]
    omega
  · refine iff_of_true ?_ (Nat.le_of_not_lt hlow)
    have hlt : low32 n < 2 ^ 32 := Nat.mod_lt _ (by decide)
    rw [sizeToInt_eq_ofNat, Int32.toInt_ofNat', Int.bmod_def, Int32.size]
    omega

theorem sizeToInt_nonneg_iff {n : UInt64} : ¬sizeToInt n < 0 ↔ low32 n < 2 ^ 31 := by
  rw [sizeToInt_lt_zero_iff, Nat.not_le]

theorem zero_le_sizeToInt {n : UInt64} (hlow : low32 n < 2 ^ 31) : 0 ≤ sizeToInt n := by
  rw [Int32.le_iff_toInt_le, toInt_sizeToInt hlow, Int32.toInt_zero]
  omega

/-- A length that does not arrive negative arrives modulo {lit}`2 ^ 32`. -/
theorem toNatClampNeg_sizeToInt {n : UInt64} (hnonneg : ¬sizeToInt n < 0) :
    (sizeToInt n).toNatClampNeg = low32 n := by
  rw [sizeToInt_nonneg_iff] at hnonneg
  rw [sizeToInt_eq_ofNat, Int32.toNatClampNeg_ofNat_of_lt hnonneg]

/-- A length that an {lit}`int` holds comes back unchanged. -/
theorem toNat_intToSize_ofNat {k : Nat} (hk : k < 2 ^ 31) :
    (intToSize (Int32.ofNat k)).toNat = k := by
  have hwide : (Int32.ofNat k).toInt64 = Int64.ofNat k := by
    apply Int64.toInt.inj
    rw [Int32.toInt_toInt64, Int32.toInt_ofNat_of_lt hk, Int64.toInt_ofNat_of_lt (by omega)]
  rw [intToSize, hwide, Int64.toUInt64_ofNat', UInt64.toNat_ofNat']
  omega

/-! ## Lengths up to {lit}`INT_MAX` -/

section UpToMax

variable {n : UInt64} (hmax : n.toNat < 2 ^ 31)
include hmax

theorem low32_of_max : low32 n = n.toNat :=
  low32_of_lt (hmax.trans (by decide))

theorem sizeToInt_nonneg_of_max : ¬sizeToInt n < 0 := by
  rwa [sizeToInt_nonneg_iff, low32_of_max hmax]

theorem toInt_sizeToInt_of_max : (sizeToInt n).toInt = n.toNat := by
  rw [toInt_sizeToInt (by rwa [low32_of_max hmax]), low32_of_max hmax]

theorem toNatClampNeg_sizeToInt_of_max : (sizeToInt n).toNatClampNeg = n.toNat := by
  rw [toNatClampNeg_sizeToInt (sizeToInt_nonneg_of_max hmax), low32_of_max hmax]

/-- Both conversions together give the length back. -/
theorem intToSize_sizeToInt : intToSize (sizeToInt n) = n := by
  apply UInt64.toNat.inj
  rw [sizeToInt_eq_ofNat, low32_of_max hmax, toNat_intToSize_ofNat hmax]

end UpToMax

end AutomotiveSecurity.HostLength
