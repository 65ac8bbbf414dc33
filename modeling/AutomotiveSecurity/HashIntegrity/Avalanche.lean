import AutomotiveSecurity.Foundations.BitDistance
import AutomotiveSecurity.HashIntegrity.HexDigest

/-!
# Counting the bits in which two hashes differ

{lit}`count_bit_differences` of {lit}`avalanche.c` takes the xor of two bytes at a time and
shifts it out bit by bit until nothing is left of it.

Main results:

- Theorem {lit}`weightLoop_eq`: the inner loop adds the ones of a byte to the count.
- Theorem {lit}`countBitDifferences_eq`: the outer loop adds up the distances of the bytes.
- Theorem {lit}`countBitDifferences_metric`: the result is the Hamming distance of the two
  bit strings, with the laws of a metric.

Current gaps:

- The {lit}`size_t` counter is a natural number; the hashes themselves are not modelled.
-/

namespace AutomotiveSecurity.Avalanche

open BitDistance FileIntegrity Memory

variable {n m : Nat}

/-! ## The function -/

/-- The {lit}`while` loop over the bits of one byte. -/
def weightLoop (xorVal : UInt8) (diffCount : Int32) : Int32 :=
  if xorVal = 0 then diffCount
  else weightLoop (xorVal >>> 1) (diffCount + promote (xorVal &&& 1))
termination_by xorVal.toNat
decreasing_by
  have hpos : xorVal.toNat ≠ 0 := fun hzero => ‹¬xorVal = 0› (UInt8.toNat_inj.mp hzero)
  rw [UInt8.toNat_shiftRight, Nat.shiftRight_eq_div_pow]
  exact Nat.div_lt_self (Nat.pos_of_ne_zero hpos) (by decide)

/-- The remaining rounds of the {lit}`for` loop over the bytes. -/
def differenceLoop (hash1 : Buffer n) (hash2 : Buffer m) :
    Nat → Nat → Int32 → Except Fault Int32
  | 0, _, diffCount => return diffCount
  | rounds + 1, i, diffCount => do
      let b1 ← hash1.get i
      let b2 ← hash2.get i
      -- Both are promoted to `int`; the assignment to `xor_val` takes the low byte back.
      let xorVal := b1 ^^^ b2
      differenceLoop hash1 hash2 rounds (i + 1) (weightLoop xorVal diffCount)

/-- {lit}`count_bit_differences`. -/
def countBitDifferences (hash1 : Buffer n) (hash2 : Buffer m) (len : Nat) :
    Except Fault Int32 :=
  differenceLoop hash1 hash2 len 0 0

/-! ## What the loops compute -/

theorem promote_and_one (v : UInt8) : promote (v &&& 1) = Int32.ofNat (v.toNat % 2) := by
  rw [promote, UInt8.toNat_and]
  exact congrArg Int32.ofNat (Nat.and_one_is_mod v.toNat)

/-- The inner loop adds the ones of a byte to the count, however wide the byte is taken to
be. -/
theorem weightLoop_eq {width : Nat} {v : UInt8} (hv : v.toNat < 2 ^ width)
    (diffCount : Int32) :
    weightLoop v diffCount = diffCount + Int32.ofNat (onesBelow width v.toNat) := by
  induction width generalizing v diffCount with
  | zero =>
      have hzero : v = 0 := UInt8.toNat_inj.mp (Nat.lt_one_iff.mp hv)
      rw [weightLoop, if_pos hzero, hzero]
      simp
  | succ width ih =>
      rw [weightLoop]
      by_cases hzero : v = 0
      · rw [if_pos hzero, hzero]
        simp
      · have hshift : (v >>> 1).toNat = v.toNat / 2 := by
          rw [UInt8.toNat_shiftRight, Nat.shiftRight_eq_div_pow]
          rfl
        have hhalf : (v >>> 1).toNat < 2 ^ width := by
          rw [Nat.pow_succ] at hv
          omega
        rw [if_neg hzero, ih hhalf, hshift, promote_and_one, onesBelow_succ, Int32.ofNat_add,
          Int32.add_assoc]

/-- The outer loop adds the distance of what is left of the hashes. -/
theorem differenceLoop_eq (hash1 : Buffer n) (hash2 : Buffer m) (rounds i : Nat)
    (diffCount : Int32) (hn : i + rounds ≤ n) (hm : i + rounds ≤ m) :
    differenceLoop hash1 hash2 rounds i diffCount =
      .ok (diffCount + Int32.ofNat
        (differences (bitAt (hash1.bytes.drop i)) (bitAt (hash2.bytes.drop i))
          (8 * rounds))) := by
  induction rounds generalizing i diffCount with
  | zero => simp [differenceLoop, pure, Except.pure]
  | succ rounds ih =>
      rcases hash1.get_of_lt (by omega : i < n) with ⟨b1, hbyte1, hcons1⟩
      rcases hash2.get_of_lt (by omega : i < m) with ⟨b2, hbyte2, hcons2⟩
      have hbyte : (b1 ^^^ b2).toNat < 2 ^ 8 := (b1 ^^^ b2).toNat_lt
      simp only [differenceLoop, hbyte1, hbyte2, bind, Except.bind]
      rw [ih (i + 1) (weightLoop (b1 ^^^ b2) diffCount) (by omega) (by omega),
        weightLoop_eq hbyte, hcons1, hcons2, differences_cons, Int32.ofNat_add,
        Int32.add_assoc]

/-- Inside both hashes the result is the number of differing bits, modulo the range of
{lit}`int`. -/
theorem countBitDifferences_eq (hash1 : Buffer n) (hash2 : Buffer m) {len : Nat}
    (hn : len ≤ n) (hm : len ≤ m) :
    countBitDifferences hash1 hash2 len =
      .ok (Int32.ofNat (differences (bitAt hash1.bytes) (bitAt hash2.bytes) (8 * len))) := by
  rw [countBitDifferences, differenceLoop_eq hash1 hash2 len 0 0 (by omega) (by omega)]
  simp

/-! ## The distance of two hashes -/

/-- The bits of an object, byte after byte, the least significant bit of each first. -/
def hashBits (hash : Buffer n) : Fin (8 * n) → Bool :=
  fun k => bitAt hash.bytes k

/-- The object with one bit flipped by {lit}`^= (1 << bit)`. -/
def flipHashBit (hash : Buffer n) (k : Fin (8 * n)) : Buffer n where
  bytes := flipBit hash.bytes k
  size_eq := by simp

theorem hashBits_injective : Function.Injective (hashBits : Buffer n → Fin (8 * n) → Bool) := by
  intro hash1 hash2 hbits
  apply Buffer.ext
  apply eq_of_bitAt_eq (hash1.size_eq.trans hash2.size_eq.symm)
  intro k hk
  rw [hash1.size_eq] at hk
  exact congrFun hbits ⟨k, hk⟩

theorem hashBits_flip (hash : Buffer n) (k : Fin (8 * n)) :
    hashBits (flipHashBit hash k) = Function.update (hashBits hash) k (!hashBits hash k) := by
  funext i
  have hk : k.val < 8 * hash.bytes.length := by
    rw [hash.size_eq]
    exact k.isLt
  have hbit : hashBits (flipHashBit hash k) i = (hashBits hash i ^^ decide (k.val = i.val)) :=
    bitAt_flipBit hk i
  rw [hbit]
  by_cases hi : i = k
  · subst hi
    simp
  · have hval : k.val ≠ i.val := fun h => hi (Fin.ext h.symm)
    simp [hi, hval]

theorem hammingDist_hashBits_le (a b : Buffer n) :
    hammingDist (hashBits a) (hashBits b) ≤ 8 * n := by
  have hle : hammingDist (hashBits a) (hashBits b) ≤ Fintype.card (Fin (8 * n)) :=
    hammingDist_le_card_fintype
  rwa [Fintype.card_fin] at hle

/-- On whole objects the result is the Hamming distance, as long as this fits an
{lit}`int`; the count only grows, so it has not overflowed on the way. -/
theorem countBitDifferences_eq_hammingDist (a b : Buffer n) (hlen : 8 * n < 2 ^ 31) :
    ∃ d, countBitDifferences a b n = .ok d ∧ d.toInt = hammingDist (hashBits a) (hashBits b) := by
  have hcount := differences_eq_hammingDist (bitAt a.bytes) (bitAt b.bytes) (8 * n)
  refine ⟨_, countBitDifferences_eq a b le_rfl le_rfl, ?_⟩
  rw [hcount]
  exact Int32.toInt_ofNat_of_lt ((hammingDist_hashBits_le a b).trans_lt hlen)

/-- For all hashes of one length whose bit count fits an {lit}`int`: the result is the number
of bit positions in which two hashes differ.  It lies between 0 and the number of bits, is
0 exactly on equal hashes, which are those {lit}`compare_hashes` finds equal, does not depend
on the order of the hashes, and obeys the triangle inequality.  Flipping one bit of a hash
moves it by exactly 1, up where the hashes agreed and down where they differed. -/
theorem countBitDifferences_metric (a b c : Buffer n) (hlen : 8 * n < 2 ^ 31) :
    ∃ ab bc ac : Int32,
      countBitDifferences a b n = .ok ab ∧ countBitDifferences b c n = .ok bc ∧
        countBitDifferences a c n = .ok ac ∧
      ab.toInt = ({k | hashBits a k ≠ hashBits b k} : Finset (Fin (8 * n))).card ∧
      0 ≤ ab.toInt ∧ ab.toInt ≤ 8 * n ∧
      (ab = 0 ↔ a = b) ∧ (ab = 0 ↔ compareHashes a b n = .ok 0) ∧
      countBitDifferences b a n = .ok ab ∧
      ac.toInt ≤ ab.toInt + bc.toInt ∧
      ∀ k, ∃ flipped, countBitDifferences a (flipHashBit b k) n = .ok flipped ∧
        flipped.toInt = ab.toInt + if hashBits a k = hashBits b k then 1 else -1 := by
  rcases countBitDifferences_eq_hammingDist a b hlen with ⟨ab, hab, habDist⟩
  rcases countBitDifferences_eq_hammingDist b c hlen with ⟨bc, hbc, hbcDist⟩
  rcases countBitDifferences_eq_hammingDist a c hlen with ⟨ac, hac, hacDist⟩
  rcases countBitDifferences_eq_hammingDist b a hlen with ⟨ba, hba, hbaDist⟩
  have hzero : ab = 0 ↔ a = b := by
    rw [← Int32.toInt_inj, habDist, ← hashBits_injective.eq_iff, ← hammingDist_eq_zero]
    exact Int.natCast_eq_zero
  have hswap : ba = ab := by
    apply Int32.toInt_inj.mp
    rw [hbaDist, habDist, hammingDist_comm]
  refine ⟨ab, bc, ac, hab, hbc, hac, habDist, ?_, ?_, hzero, ?_, hswap ▸ hba, ?_, ?_⟩
  · rw [habDist]
    exact Int.natCast_nonneg _
  · rw [habDist]
    exact_mod_cast hammingDist_hashBits_le a b
  · rw [hzero, compareHashes, constantTimeCompare_eq_zero_iff, eq_comm]
  · rw [hacDist, habDist, hbcDist]
    exact_mod_cast hammingDist_triangle (hashBits a) (hashBits b) (hashBits c)
  · intro k
    rcases countBitDifferences_eq_hammingDist a (flipHashBit b k) hlen with ⟨flipped, hrun, hdist⟩
    refine ⟨flipped, hrun, ?_⟩
    rw [hdist, habDist, hashBits_flip, hammingDist_flip]

/-- SHA-256 of {lit}`"Avalanche Effect Demo"`. -/
def hashOriginal : Buffer 32 :=
  Buffer.initialised 32
    [0x6D, 0xFF, 0xB2, 0x27, 0x96, 0xFB, 0xC8, 0xDC, 0x14, 0x6E, 0x31, 0xA6, 0x7A, 0x00,
     0x0C, 0x14, 0x65, 0x76, 0x62, 0xCD, 0x1D, 0x69, 0x8A, 0x9F, 0xD2, 0x9D, 0xA8, 0xAD,
     0xCF, 0xB2, 0x7B, 0x35]

/-- SHA-256 of the text with its first bit flipped. -/
def hashModified : Buffer 32 :=
  Buffer.initialised 32
    [0x39, 0x51, 0xE7, 0x59, 0x2E, 0xF8, 0xB7, 0xD8, 0x3B, 0xDD, 0x85, 0x20, 0x1C, 0x33,
     0x50, 0x05, 0x64, 0xA6, 0xB8, 0xA6, 0x9F, 0x66, 0x70, 0x74, 0xB4, 0x05, 0xA0, 0xF9,
     0x4C, 0x03, 0x90, 0x89]

/-- The first line of the demonstration, 124 of 256 bits. -/
theorem first_bit_flips_124 :
    ∃ d, countBitDifferences hashOriginal hashModified 32 = .ok d ∧ d.toInt = 124 := by
  rcases countBitDifferences_metric hashOriginal hashModified hashOriginal (by decide) with
    ⟨d, _, _, hrun, -, -, hcount, -⟩
  refine ⟨d, hrun, hcount.trans ?_⟩
  decide +kernel

end AutomotiveSecurity.Avalanche
