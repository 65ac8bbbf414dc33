import Mathlib

/-!
# Distances between bit strings

A byte string read as a bit string, the least significant bit of each byte first, and
the number of places in which two of them differ.

Main results:

- Theorem {lit}`hammingDist_flip`: flipping one bit changes the distance by exactly 1.
- Theorem {lit}`differences_cons`: the distance of byte strings is the number of ones in
  the xor of their first bytes, and the distance of the rest.
- Theorem {lit}`eq_of_bitAt_eq`: the bits determine the byte string.

Current gaps:

- Positions behind the end of a byte string read as 0.
-/

namespace AutomotiveSecurity.BitDistance

open Finset

/-! ## Flipping a bit -/

section Flip

variable {ι : Type*} [Fintype ι] [DecidableEq ι]

/-- Flipping a bit in which the two strings agree adds this place to those in which they
differ. -/
theorem hammingDist_flip_of_eq {x y : ι → Bool} {i : ι} (hsame : x i = y i) :
    hammingDist x (Function.update y i (!y i)) = hammingDist x y + 1 := by
  have hmem : i ∉ ({j | x j ≠ y j} : Finset ι) := by simp [hsame]
  have hset : ({j | x j ≠ Function.update y i (!y i) j} : Finset ι) =
      insert i ({j | x j ≠ y j} : Finset ι) := by
    ext j
    by_cases hj : j = i
    · subst hj
      simp [hsame]
    · simp [hj]
  rw [hammingDist, hset, card_insert_of_notMem hmem, hammingDist]

/-- Flipping one bit moves the distance by 1: up where the strings agreed, and down
where they differed. -/
theorem hammingDist_flip (x y : ι → Bool) (i : ι) :
    (hammingDist x (Function.update y i (!y i)) : Int) =
      hammingDist x y + if x i = y i then 1 else -1 := by
  by_cases hsame : x i = y i
  · rw [if_pos hsame, hammingDist_flip_of_eq hsame]
    simp
  · -- Flipping the bit back is the other case.
    have hflipped : x i = Function.update y i (!y i) i := by
      rw [Function.update_self]
      exact Bool.eq_not_of_ne hsame
    have hback := hammingDist_flip_of_eq hflipped
    rw [Function.update_self, Bool.not_not, Function.update_idem, Function.update_eq_self]
      at hback
    rw [if_neg hsame, hback]
    simp

end Flip

/-! ## Counting ones and differences -/

/-- The number of ones among the low {lit}`width` bits of a number. -/
def onesBelow (width v : Nat) : Nat :=
  ∑ j ∈ range width, (v.testBit j).toNat

/-- The number of places below {lit}`count` in which two bit sequences differ. -/
def differences (x y : Nat → Bool) (count : Nat) : Nat :=
  ∑ k ∈ range count, (x k ^^ y k).toNat

@[simp]
theorem onesBelow_of_zero (width : Nat) : onesBelow width 0 = 0 := by
  simp [onesBelow]

/-- Counting ones by halving. -/
theorem onesBelow_succ (width v : Nat) :
    onesBelow (width + 1) v = v % 2 + onesBelow width (v / 2) := by
  unfold onesBelow
  rw [sum_range_succ', Nat.add_comm]
  simp only [Nat.testBit_add_one, Nat.toNat_testBit, Nat.pow_zero, Nat.div_one]

/-- The ones of an xor are the places in which its operands differ. -/
theorem onesBelow_xor (width u v : Nat) :
    onesBelow width (u ^^^ v) = differences u.testBit v.testBit width := by
  simp [onesBelow, differences]

@[simp]
theorem differences_zero (x y : Nat → Bool) : differences x y 0 = 0 :=
  rfl

/-- The places of a sequence are those of its front and those behind the front. -/
theorem differences_add (x y : Nat → Bool) (front rest : Nat) :
    differences x y (front + rest) =
      differences x y front +
        differences (fun k => x (front + k)) (fun k => y (front + k)) rest :=
  sum_range_add _ _ _

theorem differences_congr {x x' y y' : Nat → Bool} {count : Nat}
    (hx : ∀ k < count, x k = x' k) (hy : ∀ k < count, y k = y' k) :
    differences x y count = differences x' y' count := by
  apply sum_congr rfl
  intro k hk
  rw [hx k (mem_range.mp hk), hy k (mem_range.mp hk)]

/-- Counting the differences computes the Hamming distance. -/
theorem differences_eq_hammingDist (x y : Nat → Bool) (count : Nat) :
    differences x y count =
      hammingDist (fun k : Fin count => x k) (fun k : Fin count => y k) := by
  rw [hammingDist, card_filter, differences, ← Fin.sum_univ_eq_sum_range]
  apply sum_congr rfl
  intro k _
  cases x k <;> cases y k <;> rfl

/-! ## Bits of a byte string -/

/-- The bit at a position: position {lit}`k` is bit {lit}`k % 8` of byte {lit}`k / 8`. -/
def bitAt (bytes : List UInt8) (k : Nat) : Bool :=
  (bytes.getD (k / 8) 0).toNat.testBit (k % 8)

/-- The byte string with the bit at a position flipped. -/
def flipBit (bytes : List UInt8) (k : Nat) : List UInt8 :=
  bytes.modify (k / 8) (· ^^^ UInt8.ofNat (2 ^ (k % 8)))

@[simp]
theorem length_flipBit (bytes : List UInt8) (k : Nat) :
    (flipBit bytes k).length = bytes.length :=
  List.length_modify _ _ _

theorem bitAt_cons_front (b : UInt8) (bytes : List UInt8) {k : Nat} (hk : k < 8) :
    bitAt (b :: bytes) k = b.toNat.testBit k := by
  rw [bitAt, Nat.div_eq_of_lt hk, Nat.mod_eq_of_lt hk]
  rfl

theorem bitAt_cons_rest (b : UInt8) (bytes : List UInt8) (k : Nat) :
    bitAt (b :: bytes) (8 + k) = bitAt bytes k := by
  rw [bitAt, Nat.add_div_left k (by omega), Nat.add_mod_left]
  rfl

/-- The distance of byte strings, byte by byte. -/
theorem differences_cons (a b : UInt8) (as bs : List UInt8) (count : Nat) :
    differences (bitAt (a :: as)) (bitAt (b :: bs)) (8 * (count + 1)) =
      onesBelow 8 (a ^^^ b).toNat + differences (bitAt as) (bitAt bs) (8 * count) := by
  have hfront : differences (bitAt (a :: as)) (bitAt (b :: bs)) 8 =
      differences a.toNat.testBit b.toNat.testBit 8 :=
    differences_congr (fun _ => bitAt_cons_front a as) (fun _ => bitAt_cons_front b bs)
  rw [Nat.mul_add, Nat.mul_one, Nat.add_comm (8 * count), differences_add, hfront,
    UInt8.toNat_xor, onesBelow_xor]
  simp only [bitAt_cons_rest]

/-- A byte is determined by its eight bits. -/
theorem uint8_eq_of_testBit {a b : UInt8}
    (hbits : ∀ j < 8, a.toNat.testBit j = b.toNat.testBit j) : a = b := by
  apply UInt8.toNat_inj.mp
  apply Nat.eq_of_testBit_eq
  intro j
  by_cases hj : j < 8
  · exact hbits j hj
  · have hpow : 2 ^ 8 ≤ 2 ^ j := Nat.pow_le_pow_right (by omega) (Nat.le_of_not_lt hj)
    rw [Nat.testBit_lt_two_pow (a.toNat_lt.trans_le hpow),
      Nat.testBit_lt_two_pow (b.toNat_lt.trans_le hpow)]

/-- A byte string is determined by its length and its bits. -/
theorem eq_of_bitAt_eq {as bs : List UInt8} (hlen : as.length = bs.length)
    (hbits : ∀ k < 8 * as.length, bitAt as k = bitAt bs k) : as = bs := by
  induction as generalizing bs with
  | nil => exact (List.length_eq_zero_iff.mp hlen.symm).symm
  | cons a as ih =>
      cases bs with
      | nil => simp at hlen
      | cons b bs =>
          rw [List.length_cons] at hbits
          have hfront : a = b := by
            apply uint8_eq_of_testBit
            intro j hj
            have hbit := hbits j (by omega)
            rwa [bitAt_cons_front a as hj, bitAt_cons_front b bs hj] at hbit
          have hrest : as = bs := by
            apply ih (by simpa using hlen)
            intro k hk
            have hbit := hbits (8 + k) (by omega)
            rwa [bitAt_cons_rest, bitAt_cons_rest] at hbit
          rw [hfront, hrest]

/-- {lit}`flipBit` flips the bit at its position and no other. -/
theorem bitAt_flipBit {bytes : List UInt8} {k : Nat} (hk : k < 8 * bytes.length) (i : Nat) :
    bitAt (flipBit bytes k) i = (bitAt bytes i ^^ decide (k = i)) := by
  have hbyte : k / 8 < bytes.length := by omega
  have hmask : (UInt8.ofNat (2 ^ (k % 8))).toNat = 2 ^ (k % 8) := by
    apply UInt8.toNat_ofNat_of_lt'
    exact Nat.pow_lt_pow_right (by omega) (Nat.mod_lt k (by omega))
  unfold bitAt flipBit
  by_cases hsame : k / 8 = i / 8
  · have hplace : k = i ↔ k % 8 = i % 8 := by omega
    have hread : (bytes.modify (k / 8) (· ^^^ UInt8.ofNat (2 ^ (k % 8)))).getD (i / 8) 0 =
        bytes.getD (i / 8) 0 ^^^ UInt8.ofNat (2 ^ (k % 8)) := by
      rw [← hsame]
      simp [List.getD_eq_getElem?_getD, List.getElem?_eq_getElem hbyte]
    rw [hread, UInt8.toNat_xor, hmask, Nat.testBit_xor, Nat.testBit_two_pow]
    simp only [hplace]
  · have hother : k ≠ i := fun h => hsame (congrArg (· / 8) h)
    simp [List.getD_eq_getElem?_getD, hsame, hother]

end AutomotiveSecurity.BitDistance
