import AutomotiveSecurity.Foundations.Overwriting
import AutomotiveSecurity.HashIntegrity.Avalanche
import AutomotiveSecurity.HashIntegrity.HashDemo

/-!
# The statistics of {lit}`avalanche.c`

{lit}`main` hashes a text and the text with one bit of its first byte flipped, eight times, and
then does the same for a hundred generated texts, adding up the differences.  Its function
{lit}`sha256` looks at no result except that of {lit}`EVP_MD_CTX_new`; {lit}`calculate_sha256` of
{lit}`hash_demo.c` looks at all of them.

Main results:

- Theorem {lit}`sha256_eq_calculateSha256_iff`: when the two functions agree.
- Theorem {lit}`avalancheMain_eq`: what is printed, for every pattern of failing calls.
- Theorem {lit}`avalanche_statistics`: the total never overflows, and without a failing call it
  is the sum of the distances.

Current gaps:

- The percentages, which are floating-point numbers, are not modelled.
-/

namespace AutomotiveSecurity.Avalanche

open BitDistance FileIntegrity HashDemo Memory OpenSSL

variable {σ : Type} (hash256 : IncrementalHash σ (Buffer 32))

/-! ## The hash function -/

/-- {lit}`sha256` of {lit}`avalanche.c`. -/
def sha256 (calls : DigestCalls) (data : List UInt8) (len : Nat) (hash : Buffer 32) :
    Except Fault (Int32 × Buffer 32) := do
  let some ctx := mdCtxNew calls.ctxNew | return (-1, hash)
  let ctx := (digestInit calls.init hash256 ctx).getD ctx
  let updated ← digestUpdate (calls.update 0) hash256 ctx data len
  let ctx := updated.getD ctx
  return (0, (digestFinal calls.final hash256 ctx).getD hash)

/-- What the unchecked function writes, if it writes anything: the hash of the empty text when
only the update call fails. -/
def uncheckedHash (calls : DigestCalls) (data : List UInt8) : Option (Buffer 32) :=
  if calls.ctxNew && calls.init && calls.final then
    some (hash256.digest (if calls.update 0 then data else []))
  else none

theorem sha256_eq (calls : DigestCalls) {data : List UInt8} {len : Nat} (hash : Buffer 32)
    (hlen : len ≤ data.length) :
    sha256 hash256 calls data len hash =
      .ok (if calls.ctxNew then 0 else -1,
        (uncheckedHash hash256 calls (data.take len)).getD hash) := by
  rcases calls with ⟨ctxNew, init, update, final⟩
  cases ctxNew with
  | false => rfl
  | true =>
      cases init with
      | false => rfl
      | true =>
          simp only [sha256, mdCtxNew, digestInit, if_true, bind, Except.bind, Option.getD_some,
            digestUpdate_of_le _ hash256 hash256.init hlen, uncheckedHash]
          by_cases hupdate : update 0 = true
          · cases final <;> simp [hupdate, digestFinal, IncrementalHash.digest, pure, Except.pure]
          · cases final <;>
              simp [hupdate, digestFinal, IncrementalHash.digest, hash256.update_nil, pure,
                Except.pure]

/-- No call of the computation fails. -/
def Succeeds (calls : DigestCalls) : Prop :=
  calls.ctxNew = true ∧ calls.init = true ∧ calls.update 0 = true ∧ calls.final = true

theorem works_iff {calls : DigestCalls} : works calls = true ↔ Succeeds calls := by
  simp only [works, Succeeds, Bool.and_eq_true, and_assoc]

theorem uncheckedHash_of_succeeds {calls : DigestCalls} (h : Succeeds calls)
    (data : List UInt8) : uncheckedHash hash256 calls data = some (hash256.digest data) := by
  rw [uncheckedHash, h.1, h.2.1, h.2.2.1, h.2.2.2]
  rfl

/-- The two functions agree exactly if all calls succeed or already the first one fails; in
between {lit}`sha256` reports a success that it has not had. -/
theorem sha256_eq_calculateSha256_iff (calls : DigestCalls) {data : List UInt8} {len : Nat}
    (hash : Buffer 32) (hlen : len ≤ data.length) :
    sha256 hash256 calls data len hash = calculateSha256 hash256 calls data len hash ↔
      Succeeds calls ∨ calls.ctxNew = false := by
  rw [sha256_eq hash256 calls hash hlen, calculateSha256_eq hash256 calls hash hlen]
  by_cases hsucceeds : Succeeds calls
  · rw [uncheckedHash_of_succeeds hash256 hsucceeds, hsucceeds.1,
      if_pos (works_iff.mpr hsucceeds)]
    exact iff_of_true rfl (Or.inl hsucceeds)
  · rw [if_neg (works_iff.not.mpr hsucceeds)]
    cases hnew : calls.ctxNew with
    | false => exact iff_of_true (by simp [uncheckedHash, hnew]) (Or.inr rfl)
    | true =>
        refine iff_of_false (fun hsame => ?_) ?_
        · have hcode : (0 : Int32) = -1 := congrArg Prod.fst (Except.ok.inj hsame)
          exact absurd hcode (by decide)
        · rintro (h | h)
          · exact hsucceeds h
          · exact absurd h (by decide)

/-! ## The program -/

/-- What {lit}`main` prints: the eight differences of its first part, and the sum of the hundred
of its second part. -/
structure Statistics where
  bitDiffs : List Int32
  totalDiff : Int32
deriving DecidableEq, Repr

/-- What the uninitialised locals hold; two of the arrays are declared inside a loop. -/
structure Locals where
  hashOriginal : Buffer 32
  hashModified : Buffer 32
  modified : Nat → Buffer 64
  testModified : Nat → Buffer 32

/-- The remaining rounds of the loop over the bits of the first byte. -/
def bitLoop (calls : Nat → DigestCalls) (modified : Nat → Buffer 64) (original : List UInt8)
    (dataLen : Nat) (hashOriginal : Buffer 32) :
    Nat → Nat → Buffer 32 → Except Fault (List Int32 × Buffer 32)
  | 0, _, hashModified => return ([], hashModified)
  | rounds + 1, bit, hashModified => do
      let copy ← copyChanged (modified bit) original dataLen (UInt8.ofNat (2 ^ bit))
      let (_, hashModified) ← sha256 hash256 (calls bit) copy.bytes dataLen hashModified
      let bitDiff ← countBitDifferences hashOriginal hashModified 32
      let (bitDiffs, hashModified) ← bitLoop calls modified original dataLen hashOriginal
        rounds (bit + 1) hashModified
      return (bitDiff :: bitDiffs, hashModified)

/-- {lit}`test_data` of one round. -/
def testData (test : Nat) : List UInt8 :=
  (List.range 32).map fun i => UInt8.ofNat (test * 17 + i * 31)

/-- The remaining rounds of the loop over the generated texts. -/
def testLoop (calls modifiedCalls : Nat → DigestCalls) (testModified : Nat → Buffer 32) :
    Nat → Nat → Buffer 32 → Buffer 32 → Int32 → Except Fault Int32
  | 0, _, _, _, totalDiff => return totalDiff
  | rounds + 1, test, hashOriginal, hashModified, totalDiff => do
      let (_, hashOriginal) ← sha256 hash256 (calls test) (testData test) 32 hashOriginal
      let copy ← copyChanged (testModified test) (testData test) 32 1
      let (_, hashModified) ← sha256 hash256 (modifiedCalls test) copy.bytes 32 hashModified
      let diff ← countBitDifferences hashOriginal hashModified 32
      testLoop calls modifiedCalls testModified rounds (test + 1) hashOriginal hashModified
        (totalDiff + diff)

/-- Which calls fail in the hash computations of {lit}`main`. -/
structure MainCalls where
  original : DigestCalls
  bits : Nat → DigestCalls
  tests : Nat → DigestCalls
  modifiedTests : Nat → DigestCalls

/-- {lit}`main` of {lit}`avalanche.c`, for any text in place of its own; {lit}`original` ends
in a NUL. -/
def avalancheMain (calls : MainCalls) (locals : Locals) (text : List UInt8) :
    Except Fault Statistics := do
  let original := text ++ [0]
  let (_, hashOriginal) ← sha256 hash256 calls.original original text.length
    locals.hashOriginal
  let (bitDiffs, hashModified) ← bitLoop hash256 calls.bits locals.modified original text.length
    hashOriginal 8 0 locals.hashModified
  let totalDiff ← testLoop hash256 calls.tests calls.modifiedTests locals.testModified 100 0
    hashOriginal hashModified 0
  return { bitDiffs := bitDiffs, totalDiff := totalDiff }

/-! ## What the loops compute -/

/-- The distance of two hashes. -/
def hashDistance (a b : Buffer 32) : Nat :=
  hammingDist (hashBits a) (hashBits b)

theorem hashDistance_le (a b : Buffer 32) : hashDistance a b ≤ 256 :=
  hammingDist_hashBits_le a b

theorem toInt_hashDistance (a b : Buffer 32) :
    (Int32.ofNat (hashDistance a b)).toInt = hashDistance a b :=
  Int32.toInt_ofNat_of_lt (lt_of_le_of_lt (hashDistance_le a b) (by decide))

theorem countBitDifferences_hashes (a b : Buffer 32) :
    countBitDifferences a b 32 = .ok (Int32.ofNat (hashDistance a b)) := by
  rw [countBitDifferences_eq a b le_rfl le_rfl, differences_eq_hammingDist]
  rfl

/-- The write to {lit}`hash_modified` in one round of the first loop. -/
def bitWrite (calls : Nat → DigestCalls) (text : List UInt8) (bit : Nat) :
    Option (Buffer 32) :=
  uncheckedHash hash256 (calls bit) (flipBit text bit)

/-- The write to {lit}`hash_original` in one round of the second loop. -/
def testWrite (calls : Nat → DigestCalls) (test : Nat) : Option (Buffer 32) :=
  uncheckedHash hash256 (calls test) (testData test)

/-- The write to {lit}`hash_modified` in one round of the second loop. -/
def modifiedTestWrite (calls : Nat → DigestCalls) (test : Nat) : Option (Buffer 32) :=
  uncheckedHash hash256 (calls test) (flipBit (testData test) 0)

/-- In the first byte a bit is flipped by its mask. -/
theorem modify_first_eq_flipBit (text : List UInt8) {bit : Nat} (hbit : bit < 8) :
    text.modify 0 (· ^^^ UInt8.ofNat (2 ^ bit)) = flipBit text bit := by
  rw [flipBit, Nat.div_eq_of_lt hbit, Nat.mod_eq_of_lt hbit]

/-- The first loop prints the distances to what {lit}`hash_modified` holds round after
round. -/
theorem bitLoop_eq (calls : Nat → DigestCalls) (modified : Nat → Buffer 64)
    {text rest : List UInt8} (hlen : text.length ≤ 64) (hashOriginal : Buffer 32)
    (rounds bit : Nat) (hashModified : Buffer 32) (hbit : bit + rounds ≤ 8) :
    bitLoop hash256 calls modified (text ++ rest) text.length hashOriginal rounds bit
        hashModified =
      .ok ((List.range rounds).map (fun k => Int32.ofNat (hashDistance hashOriginal
          (contents hashModified (fun i => bitWrite hash256 calls text (bit + i)) (k + 1)))),
        contents hashModified (fun i => bitWrite hash256 calls text (bit + i)) rounds) := by
  induction rounds generalizing bit hashModified with
  | zero => rfl
  | succ rounds ih =>
      rcases copyChanged_of_le (modified bit) (UInt8.ofNat (2 ^ bit)) (show 0 < 64 by omega)
        (show text.length ≤ (text ++ rest).length by simp) hlen with ⟨copy, hcopy, hfront⟩
      rw [List.take_left, modify_first_eq_flipBit text (by omega)] at hfront
      have hhash := sha256_eq hash256 (calls bit) hashModified
        (show text.length ≤ copy.bytes.length by rw [copy.size_eq]; exact hlen)
      rw [hfront] at hhash
      have hfirst := contents_from hashModified (bitWrite hash256 calls text) bit
      simp only [bitLoop, hcopy, hhash, countBitDifferences_hashes, bind, Except.bind]
      rw [ih (bit + 1) _ (by omega), List.range_succ_eq_map, List.map_cons, List.map_map]
      simp only [hfirst]
      rfl

/-- The second loop adds up the distances between what the two buffers hold. -/
theorem testLoop_eq (calls modifiedCalls : Nat → DigestCalls) (testModified : Nat → Buffer 32)
    (rounds test : Nat) (hashOriginal hashModified : Buffer 32) (totalDiff : Int32) :
    testLoop hash256 calls modifiedCalls testModified rounds test hashOriginal hashModified
        totalDiff =
      .ok (totalDiff + Int32.ofNat (∑ k ∈ Finset.range rounds,
        hashDistance
          (contents hashOriginal (fun i => testWrite hash256 calls (test + i)) (k + 1))
          (contents hashModified (fun i => modifiedTestWrite hash256 modifiedCalls (test + i))
            (k + 1)))) := by
  induction rounds generalizing test hashOriginal hashModified totalDiff with
  | zero => simp [testLoop, pure, Except.pure]
  | succ rounds ih =>
      have hlength : (testData test).length = 32 := by simp [testData]
      rcases copyChanged_of_le (testModified test) 1 (show 0 < 32 by omega) hlength.ge le_rfl with
        ⟨copy, hcopy, hfront⟩
      have hflip := modify_first_eq_flipBit (testData test) (show 0 < 8 by omega)
      rw [List.take_of_length_le hlength.le] at hfront
      have horiginal := sha256_eq hash256 (calls test) hashOriginal hlength.ge
      have hmodified := sha256_eq hash256 (modifiedCalls test) hashModified copy.size_eq.ge
      rw [List.take_of_length_le hlength.le] at horiginal
      rw [hfront, show (1 : UInt8) = UInt8.ofNat (2 ^ 0) from rfl, hflip] at hmodified
      have hfirst := contents_from hashOriginal (testWrite hash256 calls) test
      have hsecond := contents_from hashModified (modifiedTestWrite hash256 modifiedCalls) test
      simp only [testLoop, hcopy, horiginal, hmodified, countBitDifferences_hashes, bind,
        Except.bind]
      rw [ih (test + 1), Finset.sum_range_succ']
      simp only [hfirst, hsecond, contents_zero]
      rw [Nat.add_comm (Finset.sum _ _), Int32.ofNat_add, ← Int32.add_assoc]
      rfl

section Results

variable (calls : MainCalls) (locals : Locals) (text : List UInt8)

/-- {lit}`hash_original` when the first loop starts. -/
def originalAfter : Buffer 32 :=
  (uncheckedHash hash256 calls.original text).getD locals.hashOriginal

/-- {lit}`hash_modified` after so many rounds of the first loop. -/
def modifiedAfter (rounds : Nat) : Buffer 32 :=
  contents locals.hashModified (bitWrite hash256 calls.bits text) rounds

/-- {lit}`hash_original` after so many rounds of the second loop. -/
def testOriginalAfter (rounds : Nat) : Buffer 32 :=
  contents (originalAfter hash256 calls locals text) (testWrite hash256 calls.tests) rounds

/-- {lit}`hash_modified` after so many rounds of the second loop. -/
def testModifiedAfter (rounds : Nat) : Buffer 32 :=
  contents (modifiedAfter hash256 calls locals text 8)
    (modifiedTestWrite hash256 calls.modifiedTests) rounds

variable {text}

/-- Every round prints or adds the distance between what the two buffers hold then. -/
theorem avalancheMain_eq (hlen : text.length ≤ 64) :
    avalancheMain hash256 calls locals text =
      .ok
        { bitDiffs := (List.range 8).map fun k =>
            Int32.ofNat (hashDistance (originalAfter hash256 calls locals text)
              (modifiedAfter hash256 calls locals text (k + 1)))
          totalDiff := Int32.ofNat (∑ k ∈ Finset.range 100,
            hashDistance (testOriginalAfter hash256 calls locals text (k + 1))
              (testModifiedAfter hash256 calls locals text (k + 1))) } := by
  have horiginal := sha256_eq hash256 calls.original locals.hashOriginal
    (show text.length ≤ (text ++ [0]).length by simp)
  rw [List.take_left] at horiginal
  simp only [avalancheMain, horiginal, bind, Except.bind,
    bitLoop_eq hash256 calls.bits locals.modified hlen _ 8 0 _ (by decide), testLoop_eq,
    Nat.zero_add, Int32.zero_add]
  rfl

/-- Adding up so many distances stays far below the range of {lit}`int`. -/
theorem sum_distances_le (first second : Nat → Buffer 32) :
    ∑ k ∈ Finset.range 100, hashDistance (first k) (second k) ≤ 25600 :=
  Finset.sum_le_card_nsmul (Finset.range 100) _ 256 fun k _ =>
    hashDistance_le (first k) (second k)

/-- No call of {lit}`main` fails. -/
structure AllSucceed (calls : MainCalls) : Prop where
  original : Succeeds calls.original
  bits : ∀ bit, Succeeds (calls.bits bit)
  tests : ∀ test, Succeeds (calls.tests test)
  modifiedTests : ∀ test, Succeeds (calls.modifiedTests test)

variable {hash256 calls locals}

/-- Without a failing call each buffer holds the hash computed last. -/
theorem AllSucceed.buffers (h : AllSucceed calls) (k : Nat) :
    originalAfter hash256 calls locals text = hash256.digest text ∧
      modifiedAfter hash256 calls locals text (k + 1) = hash256.digest (flipBit text k) ∧
      testOriginalAfter hash256 calls locals text (k + 1) = hash256.digest (testData k) ∧
      testModifiedAfter hash256 calls locals text (k + 1) =
        hash256.digest (flipBit (testData k) 0) := by
  refine ⟨?_, ?_, ?_, ?_⟩
  · rw [originalAfter, uncheckedHash_of_succeeds hash256 h.original, Option.getD_some]
  · exact contents_succ_of_some (uncheckedHash_of_succeeds hash256 (h.bits k) _)
  · exact contents_succ_of_some (uncheckedHash_of_succeeds hash256 (h.tests k) _)
  · exact contents_succ_of_some (uncheckedHash_of_succeeds hash256 (h.modifiedTests k) _)

end Results

/-- For every hash function, every text that fits the array, every pattern of failing calls and
every content of the stack: each difference that {lit}`main` prints is the distance between what
its two buffers hold in that round, which is the one of the round before where a
computation writes nothing; their total is exact, as it stays far below the range of
{lit}`int`.  Without a failing call the eight differences are those between the hash of the text
and the hashes of the text with one bit flipped, and likewise for the total. -/
theorem avalanche_statistics (calls : MainCalls) (locals : Locals) (text : List UInt8)
    (hlen : text.length ≤ 64) :
    ∃ stats, avalancheMain hash256 calls locals text = .ok stats ∧
      stats.bitDiffs.map Int32.toInt = ((List.range 8).map fun k =>
        (hashDistance (originalAfter hash256 calls locals text)
          (modifiedAfter hash256 calls locals text (k + 1)) : Int)) ∧
      (∀ k < 7, bitWrite hash256 calls.bits text (k + 1) = none →
        stats.bitDiffs[k + 1]? = stats.bitDiffs[k]?) ∧
      stats.totalDiff.toInt = ∑ k ∈ Finset.range 100,
        (hashDistance (testOriginalAfter hash256 calls locals text (k + 1))
          (testModifiedAfter hash256 calls locals text (k + 1)) : Int) ∧
      0 ≤ stats.totalDiff.toInt ∧ stats.totalDiff.toInt ≤ 25600 ∧
      (AllSucceed calls →
        stats.bitDiffs.map Int32.toInt = ((List.range 8).map fun bit =>
            (hashDistance (hash256.digest text) (hash256.digest (flipBit text bit)) : Int)) ∧
          stats.totalDiff.toInt = ∑ test ∈ Finset.range 100,
            (hashDistance (hash256.digest (testData test))
              (hash256.digest (flipBit (testData test) 0)) : Int)) := by
  have hsum := sum_distances_le (fun k => testOriginalAfter hash256 calls locals text (k + 1))
    fun k => testModifiedAfter hash256 calls locals text (k + 1)
  have htotal := Int32.toInt_ofNat_of_lt (lt_of_le_of_lt hsum (by decide))
  refine ⟨_, avalancheMain_eq hash256 calls locals hlen, ?_, ?_, ?_, ?_, ?_, ?_⟩
  · rw [List.map_map]
    exact List.map_congr_left fun k _ => toInt_hashDistance _ _
  · intro k hk hnone
    have hsame : modifiedAfter hash256 calls locals text (k + 1 + 1) =
        modifiedAfter hash256 calls locals text (k + 1) := by
      rw [modifiedAfter, contents_succ, hnone]
      rfl
    rw [List.getElem?_map, List.getElem?_map, List.getElem?_range (by omega),
      List.getElem?_range (by omega)]
    simp only [Option.map_some, hsame]
  · exact htotal.trans (Nat.cast_sum _ _)
  · rw [htotal]
    exact Int.natCast_nonneg _
  · rw [htotal]
    exact_mod_cast hsum
  · intro hsucceed
    have hbuffers := @AllSucceed.buffers σ hash256 calls locals text hsucceed
    constructor
    · rw [List.map_map]
      refine List.map_congr_left fun k _ => (toInt_hashDistance _ _).trans ?_
      rw [(hbuffers k).1, (hbuffers k).2.1]
    · rw [htotal, Nat.cast_sum]
      refine Finset.sum_congr rfl fun k _ => ?_
      rw [(hbuffers k).2.2.1, (hbuffers k).2.2.2]

/-- {lit}`"Avalanche Effect Demo"`. -/
def demoText : List UInt8 :=
  [0x41, 0x76, 0x61, 0x6C, 0x61, 0x6E, 0x63, 0x68, 0x65, 0x20, 0x45, 0x66, 0x66, 0x65, 0x63,
   0x74, 0x20, 0x44, 0x65, 0x6D, 0x6F]

/-- SHA-256 on the text and on the text with its first bit flipped; zero on all else. -/
def demoHash (data : List UInt8) : Buffer 32 :=
  if data = demoText then hashOriginal
  else if data = flipBit demoText 0 then hashModified
  else Buffer.zero 32

/-- The computations for the second to the eighth bit find no context. -/
def noContextAfterFirst : MainCalls where
  original := .success
  bits bit := { DigestCalls.success with ctxNew := decide (bit = 0) }
  tests _ := .success
  modifiedTests _ := .success

/-- Arrays that happen to be cleared. -/
def clearLocals : Locals where
  hashOriginal := Buffer.zero 32
  hashModified := Buffer.zero 32
  modified _ := Buffer.zero 64
  testModified _ := Buffer.zero 32

/-- The difference for the first bit is then printed eight times. -/
theorem first_difference_repeated :
    ∃ stats, avalancheMain (collecting demoHash) noContextAfterFirst clearLocals demoText =
        .ok stats ∧
      stats.bitDiffs.map Int32.toInt = List.replicate 8 124 := by
  rcases avalanche_statistics (collecting demoHash) noContextAfterFirst clearLocals demoText
    (by decide) with ⟨stats, hrun, hdiffs, -⟩
  refine ⟨stats, hrun, hdiffs.trans ?_⟩
  decide +kernel

end AutomotiveSecurity.Avalanche
