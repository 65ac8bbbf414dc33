import AutomotiveSecurity.Foundations.Hex

/-!
# Digests as text and their comparison

{lit}`hash_to_hex` writes a digest in lower-case digits; each {lit}`sprintf` puts a NUL where
the next one starts.  The {lit}`-c` mode of {lit}`file_integrity.c` compares the text with its
argument by {lit}`strcasecmp`, while {lit}`compare_hashes` and {lit}`verify_mac` compare bytes.

Main results:

- Theorem {lit}`hashToHex_writes`: {lit}`hash_to_hex` writes the digits, a NUL and nothing else.
- Theorem {lit}`constantTimeCompare_eq`: the byte comparison returns 0 exactly on equal bytes.
- Theorem {lit}`hex_check_agrees`: the comparison as text succeeds exactly if the argument
  reads as bytes that compare as equal.

Current gaps:

- The {lit}`size_t` counters are natural numbers; no offset exceeds the buffer's size.
-/

namespace AutomotiveSecurity.FileIntegrity

open Hex Memory

variable {n m : Nat}

/-! ## Writing the digits -/

/-- The bytes that {lit}`sprintf(target, "%02x", b)` writes. -/
def sprintfHexByte (b : UInt8) : List UInt8 :=
  byteDigits b ++ [0]

/-- The remaining rounds of the loop in {lit}`hash_to_hex`. -/
def hexLoop (hash : Buffer n) : Nat → Nat → Buffer m → Except Fault (Buffer m)
  | 0, _, hexStr => return hexStr
  | rounds + 1, i, hexStr => do
      let b ← hash.get i
      let hexStr ← hexStr.store (i * 2) (sprintfHexByte b)
      hexLoop hash rounds (i + 1) hexStr

/-- {lit}`hash_to_hex`. -/
def hashToHex (hash : Buffer n) (hashLen : Nat) (hexStr : Buffer m) :
    Except Fault (Buffer m) := do
  let hexStr ← hexLoop hash hashLen 0 hexStr
  hexStr.store (hashLen * 2) [0]

/-- Each round adds two digits to what is in front, and nothing behind the NUL of the last
one changes. -/
theorem hexLoop_writes (hash : Buffer n) (rounds i : Nat) (hexStr : Buffer m)
    (hhash : i + rounds ≤ n) (hroom : (i + rounds) * 2 + 1 ≤ m) :
    ∃ written : Buffer m, hexLoop hash rounds i hexStr = .ok written ∧
      written.bytes.take ((i + rounds) * 2) =
        hexStr.bytes.take (i * 2) ++ lowerHex ((hash.bytes.drop i).take rounds) ∧
      written.bytes.drop ((i + rounds) * 2 + 1) =
        hexStr.bytes.drop ((i + rounds) * 2 + 1) := by
  induction rounds generalizing i hexStr with
  | zero => exact ⟨hexStr, rfl, by simp [lowerHex], rfl⟩
  | succ rounds ih =>
      rcases hash.get_of_lt (by omega : i < n) with ⟨b, hbyte, hcons⟩
      have hdigits : (byteDigits b).length = 2 := rfl
      have hfront : i * 2 + (byteDigits b).length ≤ m := by omega
      have hnul : i * 2 + (byteDigits b).length + ([0] : List UInt8).length ≤ m := by
        rw [hdigits, List.length_singleton]
        omega
      have hfits : i * 2 + (sprintfHexByte b).length ≤ m := by
        rw [sprintfHexByte, List.length_append]
        omega
      have hnext : (i + 1) * 2 = i * 2 + (byteDigits b).length := by
        rw [hdigits, Nat.succ_mul]
      have hend : i + 1 + rounds = i + (rounds + 1) := by omega
      rcases ih (i + 1) (hexStr.overwrite (i * 2) (sprintfHexByte b) hfits)
          (by omega) (by omega) with
        ⟨written, hrun, htake, hdrop⟩
      refine ⟨written, ?_, ?_, ?_⟩
      · simp only [hexLoop, hbyte, store_of_le hexStr hfits, bind, Except.bind, hrun]
      · -- The next round starts at the NUL of this one.
        have hkeep : (hexStr.overwrite (i * 2) (sprintfHexByte b) hfits).bytes.take
            ((i + 1) * 2) = hexStr.bytes.take (i * 2) ++ byteDigits b := by
          rw [hnext]
          simp only [sprintfHexByte,
            ← hexStr.overwrite_overwrite (byteDigits b) [0] hfront hnul hfits]
          rw [Buffer.take_overwrite_start, Buffer.take_overwrite_end]
        rw [← hend, htake, hkeep, hcons, List.take_succ_cons, lowerHex, List.append_assoc]
      · have hbehind : (i + 1 + rounds) * 2 + 1 =
            i * 2 + (sprintfHexByte b).length + rounds * 2 := by
          rw [sprintfHexByte, List.length_append, hdigits, List.length_singleton]
          omega
        rw [← hend, hdrop, hbehind, ← List.drop_drop, Buffer.drop_overwrite_end,
          List.drop_drop]

/-- Inside its buffers {lit}`hash_to_hex` writes the digits of the digest and a NUL, and leaves
everything behind them as it is. -/
theorem hashToHex_writes (hash : Buffer n) {hashLen : Nat} (hexStr : Buffer m)
    (hhash : hashLen ≤ n) (hroom : hashLen * 2 + 1 ≤ m) :
    ∃ written : Buffer m, hashToHex hash hashLen hexStr = .ok written ∧
      written.bytes =
        lowerHex (hash.bytes.take hashLen) ++ 0 :: hexStr.bytes.drop (hashLen * 2 + 1) := by
  rcases hexLoop_writes hash hashLen 0 hexStr (by omega) (by omega) with
    ⟨looped, hrun, htake, hdrop⟩
  rw [Nat.zero_add] at htake hdrop
  have hfits : hashLen * 2 + ([0] : List UInt8).length ≤ m := hroom
  refine ⟨looped.overwrite (hashLen * 2) [0] hfits, ?_, ?_⟩
  · simp only [hashToHex, hrun, bind, Except.bind, store_of_le looped hfits]
  · simp only [Buffer.overwrite, List.length_singleton, htake, hdrop]
    simp

/-! ## Comparing bytes -/

/-- The integer promotion of an {lit}`unsigned char`. -/
def promote (b : UInt8) : Int32 :=
  Int32.ofNat b.toNat

theorem promote_inj {a b : UInt8} : promote a = promote b ↔ a = b := by
  constructor
  · intro hsame
    have hvalue := congrArg Int32.toInt hsame
    have ha : a.toNat < 2 ^ 31 := a.toNat_lt.trans (by decide)
    have hb : b.toNat < 2 ^ 31 := b.toNat_lt.trans (by decide)
    rw [promote, promote, Int32.toInt_ofNat_of_lt ha, Int32.toInt_ofNat_of_lt hb] at hvalue
    exact UInt8.toNat_inj.mp (Int.ofNat_inj.mp hvalue)
  · rintro rfl
    rfl

/-- The remaining rounds of the comparing loop, which has collected the differences so far in
{lit}`result`. -/
def compareLoop (bytes1 : Buffer n) (bytes2 : Buffer m) :
    Nat → Nat → Int32 → Except Fault Int32
  | 0, _, result => return result
  | rounds + 1, i, result => do
      let b1 ← bytes1.get i
      let b2 ← bytes2.get i
      compareLoop bytes1 bytes2 rounds (i + 1) (result ||| (promote b1 ^^^ promote b2))

/-- The common body of {lit}`compare_hashes` and {lit}`verify_mac`. -/
def constantTimeCompare (bytes1 : Buffer n) (bytes2 : Buffer m) (len : Nat) :
    Except Fault Int32 := do
  let result ← compareLoop bytes1 bytes2 len 0 0
  return if result = 0 then 0 else -1

/-- {lit}`compare_hashes` of {lit}`file_integrity.c`. -/
def compareHashes (hash1 : Buffer n) (hash2 : Buffer m) (len : Nat) : Except Fault Int32 :=
  constantTimeCompare hash1 hash2 len

/-- {lit}`verify_mac` of {lit}`hmac_demo.c`. -/
def verifyMac (mac1 : Buffer n) (mac2 : Buffer m) (len : Nat) : Except Fault Int32 :=
  constantTimeCompare mac1 mac2 len

/-- The collected differences are 0 only if they were before and no further bytes
differ. -/
theorem compareLoop_eq_zero (bytes1 : Buffer n) (bytes2 : Buffer m) (rounds i : Nat)
    (result : Int32) (hn : i + rounds ≤ n) (hm : i + rounds ≤ m) :
    ∃ collected, compareLoop bytes1 bytes2 rounds i result = .ok collected ∧
      (collected = 0 ↔ result = 0 ∧
        (bytes1.bytes.drop i).take rounds = (bytes2.bytes.drop i).take rounds) := by
  induction rounds generalizing i result with
  | zero => exact ⟨result, rfl, by simp⟩
  | succ rounds ih =>
      rcases bytes1.get_of_lt (by omega : i < n) with ⟨b1, hbyte1, hcons1⟩
      rcases bytes2.get_of_lt (by omega : i < m) with ⟨b2, hbyte2, hcons2⟩
      rcases ih (i + 1) (result ||| (promote b1 ^^^ promote b2)) (by omega) (by omega) with
        ⟨collected, hrun, hzero⟩
      refine ⟨collected, ?_, ?_⟩
      · simp only [compareLoop, hbyte1, hbyte2, bind, Except.bind, hrun]
      · rw [hzero, Int32.or_eq_zero_iff, Int32.xor_eq_zero_iff, promote_inj, hcons1, hcons2,
          List.take_succ_cons, List.take_succ_cons, List.cons.injEq, and_assoc]

/-- Inside both objects the comparison returns 0 exactly on equal bytes, and -1
otherwise. -/
theorem constantTimeCompare_eq (bytes1 : Buffer n) (bytes2 : Buffer m) {len : Nat} (hn : len ≤ n)
    (hm : len ≤ m) :
    constantTimeCompare bytes1 bytes2 len =
      .ok (if bytes1.bytes.take len = bytes2.bytes.take len then 0 else -1) := by
  rcases compareLoop_eq_zero bytes1 bytes2 len 0 0 (by omega) (by omega) with
    ⟨collected, hrun, hzero⟩
  rw [List.drop_zero, List.drop_zero, eq_self, true_and] at hzero
  simp only [constantTimeCompare, hrun, bind, Except.bind, hzero]
  rfl

/-- On whole objects of one size a result of 0 means equality. -/
theorem constantTimeCompare_eq_zero_iff (bytes1 bytes2 : Buffer n) :
    constantTimeCompare bytes1 bytes2 n = .ok 0 ↔ bytes2 = bytes1 := by
  rw [constantTimeCompare_eq bytes1 bytes2 le_rfl le_rfl, List.take_of_length_le bytes1.size_eq.le,
    List.take_of_length_le bytes2.size_eq.le]
  by_cases hsame : bytes1.bytes = bytes2.bytes
  · rw [if_pos hsame]
    exact iff_of_true rfl (Buffer.ext hsame.symm)
  · rw [if_neg hsame]
    refine iff_of_false ?_ fun heq => hsame (congrArg Buffer.bytes heq.symm)
    intro hcode
    exact absurd (Except.ok.inj hcode) (by decide)

/-! ## Comparing text -/

/-- The text comparison succeeds exactly if the other string reads as the digest. -/
theorem strcasecmp_lowerHex (bytes : List UInt8) (s : CString) (hexRest rest : List UInt8) :
    ∃ d, strcasecmp (lowerHex bytes ++ 0 :: hexRest) (s.chars ++ 0 :: rest) = .ok d ∧
      (d = 0 ↔ decodeHex s.chars = some bytes) := by
  rcases strcasecmp_of_terminated ⟨lowerHex bytes, zero_not_mem_lowerHex bytes⟩ s hexRest rest with
    ⟨d, hrun, hzero⟩
  refine ⟨d, hrun, ?_⟩
  rw [hzero, map_foldCase_lowerHex, eq_comm, map_foldCase_eq_lowerHex_iff]

/-- For every digest, every buffer that holds its text and every C string:
{lit}`hash_to_hex` writes exactly two lower-case digits a byte, which read as the digest, and
a NUL; the text compares as 0 with the string exactly if the string consists of as many
digits, in either case, that read as bytes with which the digest compares as 0; and both
byte comparisons give 0 on equal bytes only. -/
theorem hex_check_agrees (hash : Buffer n) (hexStr : Buffer m) (s : CString)
    (rest : List UInt8) (hroom : n * 2 + 1 ≤ m) :
    (∃ written : Buffer m, hashToHex hash n hexStr = .ok written ∧
      (∃ digits, written.bytes = digits ++ 0 :: hexStr.bytes.drop (n * 2 + 1) ∧
        digits.length = 2 * n ∧ (∀ c ∈ digits, IsLowerDigit c) ∧
        decodeHex digits = some hash.bytes) ∧
      ∃ d, strcasecmp written.bytes (s.chars ++ 0 :: rest) = .ok d ∧
        (d = 0 ↔ s.chars.length = 2 * n ∧ (∀ c ∈ s.chars, (digitValue c).isSome) ∧
          ∃ hash' : Buffer n, decodeHex s.chars = some hash'.bytes ∧
            compareHashes hash hash' n = .ok 0)) ∧
    ∀ hash' : Buffer n,
      (compareHashes hash hash' n = .ok 0 ↔ hash' = hash) ∧
        (verifyMac hash hash' n = .ok 0 ↔ hash' = hash) := by
  constructor
  · rcases hashToHex_writes hash hexStr le_rfl hroom with ⟨written, hrun, hwritten⟩
    rw [List.take_of_length_le hash.size_eq.le] at hwritten
    have hlength : (lowerHex hash.bytes).length = 2 * n := by
      rw [length_lowerHex, hash.size_eq]
    rcases strcasecmp_lowerHex hash.bytes s (hexStr.bytes.drop (n * 2 + 1)) rest with
      ⟨d, hcompare, hzero⟩
    refine ⟨written, hrun, ⟨_, hwritten, hlength, fun c => isLowerDigit_of_mem,
      decodeHex_lowerHex hash.bytes⟩, d, hwritten ▸ hcompare, ?_⟩
    rw [hzero]
    constructor
    · intro hread
      have hdigits := decodeHex_isSome_iff.mp (Option.isSome_of_eq_some hread)
      have hsize := length_of_decodeHex hread
      rw [hash.size_eq] at hsize
      exact ⟨hsize, hdigits.2, hash, hread, (constantTimeCompare_eq_zero_iff hash hash).mpr rfl⟩
    · rintro ⟨_, _, hash', hread, hsame⟩
      rw [hread, (constantTimeCompare_eq_zero_iff hash hash').mp hsame]
  · intro hash'
    exact ⟨constantTimeCompare_eq_zero_iff hash hash', constantTimeCompare_eq_zero_iff hash hash'⟩

/-- Two bytes against their digits in mixed case. -/
theorem mixed_case_digits_accepted :
    ∃ written : Buffer 5,
      hashToHex (⟨[0xBA, 0x78], rfl⟩ : Buffer 2) 2 (Buffer.zero 5) = .ok written ∧
        ∃ d, strcasecmp written.bytes [0x42, 0x61, 0x37, 0x38, 0] = .ok d ∧ d = 0 := by
  rcases hex_check_agrees (⟨[0xBA, 0x78], rfl⟩ : Buffer 2) (Buffer.zero 5)
      ⟨[0x42, 0x61, 0x37, 0x38], by decide⟩ [] (by decide) with
    ⟨⟨written, hrun, _, d, hcompare, hzero⟩, hbytes⟩
  exact ⟨written, hrun, d, hcompare,
    hzero.mpr ⟨rfl, by simp [digitValue], ⟨[0xBA, 0x78], rfl⟩, by decide, (hbytes _).1.mpr rfl⟩⟩

end AutomotiveSecurity.FileIntegrity
