import AutomotiveSecurity.AesEncryption.EcbVsCbc
import AutomotiveSecurity.AesEncryption.CbcDecryption

/-!
# What the ciphertexts of the demonstrations show

{lit}`ecb_vs_cbc.c` compares blocks of one ciphertext, and {lit}`aes_cbc.c` prints two
ciphertexts of one message.  This module says what can be seen there in general: equal blocks
in ECB mode, chained blocks in CBC mode, and the front that two messages have in common when
an IV is used twice.

Main results:

- Theorem {lit}`EcbVsCbc.equal_blocks_show_iff`: which ciphertext blocks compare as equal.
- Theorem {lit}`EcbVsCbc.main_reports_iff`: the four lines of the demonstration.
- Theorem {lit}`AesCbc.two_ciphertexts_show`: what two ciphertexts under one key show.

Current gaps:

- The key and the IVs are arbitrary; that they are random is not used.
-/

namespace AutomotiveSecurity.EcbVsCbc

open HostLength Memory OpenSSL

variable {σ : Type} {n : Nat}

/-! ## Equal blocks of one ciphertext -/

/-- C {lit}`memcmp(ciphertext + 16 * i, ciphertext + 16 * j, 16)`. -/
def compareBlocks (ciphertext : Buffer n) (i j : Nat) : Except Fault Int :=
  memcmp (ciphertext.bytes.drop (16 * i)) (ciphertext.bytes.drop (16 * j)) 16

/-- Inside the buffer two blocks compare as 0 exactly when they are equal. -/
theorem compareBlocks_eq_zero_iff (ciphertext : Buffer n) {i j : Nat} (hi : 16 * (i + 1) ≤ n)
    (hj : 16 * (j + 1) ≤ n) :
    ∃ r, compareBlocks ciphertext i j = .ok r ∧
      (r = 0 ↔ blockAt 16 ciphertext.bytes i = blockAt 16 ciphertext.bytes j) := by
  have hleft : 16 ≤ (ciphertext.bytes.drop (16 * i)).length := by
    rw [List.length_drop, ciphertext.size_eq]
    omega
  have hright : 16 ≤ (ciphertext.bytes.drop (16 * j)).length := by
    rw [List.length_drop, ciphertext.size_eq]
    omega
  exact memcmp_eq_zero_iff _ _ 16 hleft hright

/-- Text in whole blocks leaves its encrypted blocks in the buffer when no call fails. -/
theorem unpaddedEncrypt_blocks (mode : BlockMode σ AesBlock) (iv : σ) (outlen : Int32)
    {plaintext : List UInt8} {len : UInt64} (ciphertext : Buffer n)
    (hplain : len.toNat ≤ plaintext.length) (hmax : len.toNat < 2 ^ 31)
    (hroom : len.toNat ≤ n) (hwhole : 16 ∣ len.toNat) :
    ∃ (written : Buffer n) (rest : List UInt8),
      unpaddedEncrypt mode iv .success outlen plaintext len ciphertext = .ok (0, written) ∧
        written.bytes = blockBytes (mode.encryptBlocks iv
          (blocksOf 16 (len.toNat / 16) plaintext)).1 ++ rest := by
  rcases unpaddedEncrypt_of_whole mode iv outlen ciphertext hplain hmax hroom hwhole with
    ⟨written, hrun, hread⟩
  refine ⟨written, written.bytes.drop len.toNat, hrun, ?_⟩
  rw [encryptWhole, List.length_take_of_le hplain,
    blocksOf_take (Nat.mul_div_le _ _) hplain] at hread
  rw [← hread, List.take_append_drop]

section Shown

variable (cipher : BlockCipher (Buffer 16) AesBlock) (outlen : Int32) (key iv : Buffer 16)
  {plaintext : List UInt8} {len : UInt64} (ciphertext : Buffer n)

/-- In ECB mode blocks compare as equal exactly where the text repeats itself. -/
theorem aesEcbEncrypt_compare (hplain : len.toNat ≤ plaintext.length)
    (hmax : len.toNat < 2 ^ 31) (hroom : len.toNat ≤ n) (hwhole : 16 ∣ len.toNat) :
    ∃ written,
      aesEcbEncrypt cipher .success outlen key plaintext len ciphertext = .ok (0, written) ∧
      ∀ i j, 16 * (i + 1) ≤ len.toNat → 16 * (j + 1) ≤ len.toNat →
        ∃ r, compareBlocks written i j = .ok r ∧
          (r = 0 ↔ blockAt 16 plaintext i = blockAt 16 plaintext j) := by
  rcases unpaddedEncrypt_blocks (aes128Ecb cipher key) () outlen ciphertext hplain hmax hroom
    hwhole with ⟨written, rest, hrun, hbytes⟩
  have hlen : ((aes128Ecb cipher key).encryptBlocks ()
      (blocksOf 16 (len.toNat / 16) plaintext)).1.length = len.toNat / 16 := by
    rw [BlockMode.encryptBlocks, length_runBlocks, length_blocksOf]
  refine ⟨written, hrun, ?_⟩
  intro i j hi hj
  rcases compareBlocks_eq_zero_iff written (hi.trans hroom) (hj.trans hroom) with
    ⟨r, hcompare, hzero⟩
  refine ⟨r, hcompare, hzero.trans ?_⟩
  rw [hbytes, blockAt_eq_iff _ _ (by omega) (by omega)]
  exact (ecb_getElem?_eq_iff cipher key _ i j).trans
    (getElem?_blocksOf_eq_iff (by omega) (by omega) (by omega))

/-- A block of the text with the bytes of the ciphertext block, or of the IV, in front of it
combined. -/
def chainedBlock (plaintext : List UInt8) (iv : Buffer 16) (ciphertext : Buffer n) (i : Nat) :
    List UInt8 :=
  List.zipWith (· ^^^ ·) (blockAt 16 plaintext i) (blockAt 16 (iv.bytes ++ ciphertext.bytes) i)

/-- In CBC mode blocks compare as equal exactly where the text, combined with the block in
front of it, repeats itself. -/
theorem aesCbcEncrypt_compare (hplain : len.toNat ≤ plaintext.length)
    (hmax : len.toNat < 2 ^ 31) (hroom : len.toNat ≤ n) (hwhole : 16 ∣ len.toNat) :
    ∃ written,
      aesCbcEncrypt cipher .success outlen key iv plaintext len ciphertext = .ok (0, written) ∧
      ∀ i j, 16 * (i + 1) ≤ len.toNat → 16 * (j + 1) ≤ len.toNat →
        ∃ r, compareBlocks written i j = .ok r ∧
          (r = 0 ↔ chainedBlock plaintext iv written i = chainedBlock plaintext iv written j) := by
  rcases unpaddedEncrypt_blocks (aes128Cbc cipher key) iv outlen ciphertext hplain hmax hroom
    hwhole with ⟨written, rest, hrun, hbytes⟩
  obtain ⟨cs, hcs⟩ : ∃ cs, cs = ((aes128Cbc cipher key).encryptBlocks iv
      (blocksOf 16 (len.toNat / 16) plaintext)).1 := ⟨_, rfl⟩
  have hlen : cs.length = len.toNat / 16 := by
    rw [hcs, BlockMode.encryptBlocks, length_runBlocks, length_blocksOf]
  rw [← hcs] at hbytes
  have hchained : iv.bytes ++ written.bytes = blockBytes (iv :: cs) ++ rest := by
    rw [hbytes, ← List.append_assoc]
    rfl
  have hcombined : ∀ k, 16 * (k + 1) ≤ len.toNat → ∃ b chain : AesBlock,
      (blocksOf 16 (len.toNat / 16) plaintext)[k]? = some b ∧ chainAt iv cs k = some chain ∧
        chainedBlock plaintext iv written k = (xorBlock b chain).bytes := by
    intro k hk
    rcases @getElem?_blocksOf 16 (len.toNat / 16) plaintext (by omega) k (by omega) with
      ⟨b, hb, hblock⟩
    rcases @chainAt_of_le 16 iv cs k (by omega) with ⟨chain, hchain⟩
    refine ⟨b, chain, hb, hchain, ?_⟩
    rw [chainedBlock, hchained, blockAt_blockBytes _ rest hchain, ← hblock]
    rfl
  refine ⟨written, hrun, ?_⟩
  intro i j hi hj
  rcases compareBlocks_eq_zero_iff written (hi.trans hroom) (hj.trans hroom) with
    ⟨r, hcompare, hzero⟩
  rcases hcombined i hi with ⟨b, chain, hb, hchain, hblock⟩
  rcases hcombined j hj with ⟨b', chain', hb', hchain', hblock'⟩
  refine ⟨r, hcompare, hzero.trans ?_⟩
  rw [hblock, hblock', hbytes, blockAt_eq_iff _ _ (by omega) (by omega)]
  rw [hcs] at hchain hchain' ⊢
  exact (cbc_getElem?_eq_iff cipher key hb hb' hchain hchain').trans Buffer.ext_iff

/-- For every cipher, key, IV and plaintext in whole blocks up to {lit}`INT_MAX` bytes, without a
failing call: any two blocks of the ECB ciphertext compare as equal exactly if the two
plaintext blocks are equal, and any two blocks of the CBC ciphertext exactly if the plaintext
blocks are equal after each has been combined with the ciphertext block, or the IV, in front
of it. -/
theorem equal_blocks_show_iff (hplain : len.toNat ≤ plaintext.length)
    (hmax : len.toNat < 2 ^ 31) (hroom : len.toNat ≤ n) (hwhole : 16 ∣ len.toNat) :
    (∃ written,
      aesEcbEncrypt cipher .success outlen key plaintext len ciphertext = .ok (0, written) ∧
      ∀ i j, 16 * (i + 1) ≤ len.toNat → 16 * (j + 1) ≤ len.toNat →
        ∃ r, compareBlocks written i j = .ok r ∧
          (r = 0 ↔ blockAt 16 plaintext i = blockAt 16 plaintext j)) ∧
    ∃ written,
      aesCbcEncrypt cipher .success outlen key iv plaintext len ciphertext = .ok (0, written) ∧
      ∀ i j, 16 * (i + 1) ≤ len.toNat → 16 * (j + 1) ≤ len.toNat →
        ∃ r, compareBlocks written i j = .ok r ∧
          (r = 0 ↔ chainedBlock plaintext iv written i = chainedBlock plaintext iv written j) :=
  ⟨aesEcbEncrypt_compare cipher outlen key ciphertext hplain hmax hroom hwhole,
    aesCbcEncrypt_compare cipher outlen key iv ciphertext hplain hmax hroom hwhole⟩

end Shown

/-- The pattern twice, as text of two blocks. -/
def repeatedPattern : List UInt8 :=
  samplePattern.bytes ++ samplePattern.bytes

/-- In ECB mode the repeated pattern shows. -/
theorem repeated_pattern_shows :
    ∃ (written : Buffer 32) (r : Int),
      aesEcbEncrypt sampleCipher .success 0 (Buffer.zero 16) repeatedPattern 32 (Buffer.zero 32) =
        .ok (0, written) ∧
      compareBlocks written 0 1 = .ok r ∧ r = 0 := by
  rcases (@equal_blocks_show_iff 32 sampleCipher 0 (Buffer.zero 16) (Buffer.zero 16)
    repeatedPattern 32 (Buffer.zero 32) (by decide) (by decide) (by decide) (by decide)).1 with
    ⟨written, hrun, hcompare⟩
  rcases hcompare 0 1 (by decide) (by decide) with ⟨r, hr, hzero⟩
  exact ⟨written, r, hrun, hr, hzero.mpr (by decide)⟩

/-! ## The demonstration -/

/-- The other block of the demonstration, {lit}`DIFFERENT_DATA!!`. -/
def differentData : AesBlock :=
  ⟨[0x44, 0x49, 0x46, 0x46, 0x45, 0x52, 0x45, 0x4E,
    0x54, 0x5F, 0x44, 0x41, 0x54, 0x41, 0x21, 0x21], rfl⟩

/-- Which of the four findings {lit}`main` prints: equal ECB blocks and different CBC blocks,
each for the first two blocks and for the first and the last one. -/
structure MainReport where
  ecbFirstSecond : Bool
  ecbFirstFourth : Bool
  cbcFirstSecond : Bool
  cbcFirstFourth : Bool
deriving DecidableEq, Repr

/-- The plaintext that {lit}`main` puts together. -/
def mainPlaintext : Except Fault (Buffer 64) := do
  let plaintext := Buffer.zero 64
  let plaintext ← memcpy plaintext 0 samplePattern.bytes 16
  let plaintext ← memcpy plaintext 16 samplePattern.bytes 16
  let plaintext ← memcpy plaintext 32 differentData.bytes 16
  memcpy plaintext 48 samplePattern.bytes 16

/-- {lit}`main` of {lit}`ecb_vs_cbc.c` from the filled {lit}`key` and {lit}`iv` on. -/
def ecbVsCbcMain (cipher : BlockCipher (Buffer 16) AesBlock) (ecbCalls cbcCalls : CipherCalls)
    (ecbOutlen cbcOutlen : Int32) (key iv : Buffer 16) (ciphertextEcb ciphertextCbc : Buffer 64) :
    Except Fault (Int32 × MainReport) := do
  let plaintext ← mainPlaintext
  let (_, ciphertextEcb) ←
    aesEcbEncrypt cipher ecbCalls ecbOutlen key plaintext.bytes 64 ciphertextEcb
  let ecbSecond ← compareBlocks ciphertextEcb 0 1
  let ecbFourth ← compareBlocks ciphertextEcb 0 3
  let (_, ciphertextCbc) ←
    aesCbcEncrypt cipher cbcCalls cbcOutlen key iv plaintext.bytes 64 ciphertextCbc
  let cbcSecond ← compareBlocks ciphertextCbc 0 1
  let cbcFourth ← compareBlocks ciphertextCbc 0 3
  return (0,
    { ecbFirstSecond := ecbSecond = 0
      ecbFirstFourth := ecbFourth = 0
      cbcFirstSecond := cbcSecond ≠ 0
      cbcFirstFourth := cbcFourth ≠ 0 })

/-- What {lit}`main` puts together: the pattern in the first, second and last block. -/
theorem mainPlaintext_blocks :
    ∃ plaintext : Buffer 64, mainPlaintext = .ok plaintext ∧
      blockAt 16 plaintext.bytes 0 = samplePattern.bytes ∧
      blockAt 16 plaintext.bytes 1 = samplePattern.bytes ∧
      blockAt 16 plaintext.bytes 3 = samplePattern.bytes :=
  ⟨Buffer.initialised 64 (samplePattern.bytes ++ samplePattern.bytes ++ differentData.bytes ++
    samplePattern.bytes), by rfl, by rfl, by rfl, by rfl⟩

/-- Combined with the same bytes, two blocks are equal exactly if they are. -/
theorem zipWith_xor_pattern_iff {a b : List UInt8} (ha : a.length = 16) (hb : b.length = 16) :
    List.zipWith (· ^^^ ·) samplePattern.bytes a = List.zipWith (· ^^^ ·) samplePattern.bytes b ↔
      a = b := by
  have hxor := @xorBlock_left_inj 16 ⟨a, ha⟩ ⟨b, hb⟩ samplePattern
  rw [Buffer.ext_iff, Buffer.ext_iff] at hxor
  exact hxor

/-- For every cipher, key and IV, and whatever the two ciphertext arrays held before: when no
call fails {lit}`main` always reports the equal ECB blocks, and it reports the first and second
CBC blocks as different exactly if the first ciphertext block is not the IV, the first and
last ones exactly if the third ciphertext block is not the IV. -/
theorem main_reports_iff (cipher : BlockCipher (Buffer 16) AesBlock)
    (ecbOutlen cbcOutlen : Int32) (key iv : Buffer 16)
    (ciphertextEcb ciphertextCbc : Buffer 64) :
    ∃ (plaintext written : Buffer 64) (report : MainReport),
      mainPlaintext = .ok plaintext ∧
      aesCbcEncrypt cipher .success cbcOutlen key iv plaintext.bytes 64 ciphertextCbc =
        .ok (0, written) ∧
      ecbVsCbcMain cipher .success .success ecbOutlen cbcOutlen key iv ciphertextEcb
        ciphertextCbc = .ok (0, report) ∧
      report.ecbFirstSecond = true ∧ report.ecbFirstFourth = true ∧
      (report.cbcFirstSecond = true ↔ blockAt 16 written.bytes 0 ≠ iv.bytes) ∧
      (report.cbcFirstFourth = true ↔ blockAt 16 written.bytes 2 ≠ iv.bytes) := by
  rcases mainPlaintext_blocks with ⟨plaintext, hplain, hfirst, hsecond, hfourth⟩
  have hlen : (64 : UInt64).toNat ≤ plaintext.bytes.length := plaintext.size_eq.ge
  rcases aesEcbEncrypt_compare cipher ecbOutlen key ciphertextEcb hlen (by decide) le_rfl
    (by decide) with ⟨ecb, hecb, hcompareEcb⟩
  rcases aesCbcEncrypt_compare cipher cbcOutlen key iv ciphertextCbc hlen (by decide) le_rfl
    (by decide) with ⟨cbc, hcbc, hcompareCbc⟩
  rcases hcompareEcb 0 1 (by decide) (by decide) with ⟨e₂, he₂, hzero₂⟩
  rcases hcompareEcb 0 3 (by decide) (by decide) with ⟨e₄, he₄, hzero₄⟩
  rcases hcompareCbc 0 1 (by decide) (by decide) with ⟨c₂, hc₂, hchained₂⟩
  rcases hcompareCbc 0 3 (by decide) (by decide) with ⟨c₄, hc₄, hchained₄⟩
  have hstart : blockAt 16 (iv.bytes ++ cbc.bytes) 0 = iv.bytes :=
    List.take_left' iv.size_eq
  have hbehind : ∀ i, blockAt 16 (iv.bytes ++ cbc.bytes) (i + 1) = blockAt 16 cbc.bytes i :=
    fun i => blockAt_append_right (show iv.bytes.length = 16 * 1 by simp) (by omega)
  have hinside : ∀ i, 16 * (i + 1) ≤ 64 → (blockAt 16 cbc.bytes i).length = 16 := by
    intro i hi
    rw [blockAt, List.length_take, List.length_drop, cbc.size_eq]
    omega
  rw [chainedBlock, chainedBlock, hfirst, hsecond, hstart, hbehind,
    zipWith_xor_pattern_iff iv.size_eq (hinside 0 (by decide))] at hchained₂
  rw [chainedBlock, chainedBlock, hfirst, hfourth, hstart, hbehind,
    zipWith_xor_pattern_iff iv.size_eq (hinside 2 (by decide))] at hchained₄
  refine ⟨plaintext, cbc, ⟨decide (e₂ = 0), decide (e₄ = 0), decide (c₂ ≠ 0), decide (c₄ ≠ 0)⟩,
    hplain, hcbc, ?_, ?_, ?_, ?_, ?_⟩
  · simp only [ecbVsCbcMain, hplain, hecb, he₂, he₄, hcbc, hc₂, hc₄, bind, Except.bind]
    rfl
  · exact decide_eq_true (hzero₂.mpr (hfirst.trans hsecond.symm))
  · exact decide_eq_true (hzero₄.mpr (hfirst.trans hfourth.symm))
  · rw [decide_eq_true_iff, ne_eq, hchained₂, eq_comm]
  · rw [decide_eq_true_iff, ne_eq, hchained₄, eq_comm]

end AutomotiveSecurity.EcbVsCbc

namespace AutomotiveSecurity.AesCbc

open HostLength Memory OpenSSL

/-! ## Two ciphertexts under one key -/

variable {n m : Nat} {cipher : BlockCipher (Buffer 32) AesBlock} {key : Buffer 32}
  {calls calls' : CipherCalls} {iv iv' : Buffer 16} {plaintext plaintext' : List UInt8}
  {plaintextLen plaintextLen' : UInt64}

/-- The blocks of the padded text, as far as the converted length reaches. -/
def paddedBlocks (plaintext : List UInt8) (plaintextLen : UInt64) : List AesBlock :=
  blocksOf 16 (low32 plaintextLen / 16 + 1)
    (Pkcs7.pad 16 (plaintext.take (low32 plaintextLen)))

theorem length_paddedBlocks :
    (paddedBlocks plaintext plaintextLen).length = low32 plaintextLen / 16 + 1 :=
  length_blocksOf _ _

/-- The front of the padded text in blocks. -/
theorem take_pad_eq (hplain : plaintextLen.toNat ≤ plaintext.length) {k : Nat}
    (hk : k ≤ low32 plaintextLen / 16 + 1) :
    (Pkcs7.pad 16 (plaintext.take (low32 plaintextLen))).take (16 * k) =
      blockBytes ((paddedBlocks plaintext plaintextLen).take k) := by
  obtain ⟨padded, hpadded⟩ : ∃ padded,
      padded = Pkcs7.pad 16 (plaintext.take (low32 plaintextLen)) := ⟨_, rfl⟩
  have hlen : padded.length = 16 * (low32 plaintextLen / 16 + 1) := by
    rw [hpadded, Pkcs7.length_pad, Pkcs7.add_padLength (by decide),
      List.length_take_of_le ((low32_le _).trans hplain)]
  have hbytes : blockBytes (paddedBlocks plaintext plaintextLen) = padded := by
    rw [paddedBlocks, ← hpadded, blockBytes_blocksOf hlen.ge, ← hlen, List.take_length]
  rw [← take_blockBytes _ [] (by rwa [length_paddedBlocks]), List.append_nil, hbytes, hpadded]

/-- A successful encryption leaves the encrypted blocks of the padded text in the buffer. -/
theorem aesCbcEncrypt_blocks {ciphertext written : Buffer n} {ciphertextLen writtenLen : UInt64}
    (hplain : plaintextLen.toNat ≤ plaintext.length)
    (hroom : 16 * (plaintextLen.toNat / 16 + 1) ≤ n)
    (hrun : aesCbcEncrypt cipher calls key iv plaintext plaintextLen ciphertext ciphertextLen =
      .ok (0, written, writtenLen)) :
    ∃ rest, written.bytes = blockBytes ((aes256Cbc cipher key).encryptBlocks iv
      (paddedBlocks plaintext plaintextLen)).1 ++ rest := by
  rcases aesCbcEncrypt_accepts cipher key iv hplain hrun with ⟨hcalls, hnonneg⟩
  rcases aesCbcEncrypt_of_accepted cipher key iv ciphertext ciphertextLen hcalls hnonneg hplain
    hroom with ⟨written', hrun', hread⟩
  rw [hrun] at hrun'
  rcases Prod.mk.inj (Prod.mk.inj (Except.ok.inj hrun')).2 with ⟨rfl, _⟩
  have hlen : (plaintext.take (low32 plaintextLen)).length = low32 plaintextLen :=
    List.length_take_of_le ((low32_le _).trans hplain)
  refine ⟨written.bytes.drop (16 * (low32 plaintextLen / 16 + 1)), ?_⟩
  rw [encryptWhole, length_pad_div, hlen] at hread
  rw [paddedBlocks, ← hread, List.take_append_drop]

/-- For every key and any two successful runs of {lit}`aes_cbc_encrypt` under it, on texts of at
most {lit}`INT_MAX - 16` bytes.  If the texts are the same, a block is the same in both
ciphertexts exactly if the IVs are the same, at every position.  If the IVs are the same, the
ciphertexts agree in their first blocks exactly as far as the padded texts do.  Of a longer
text the bytes are meant that the low 32 bits of its length reach. -/
theorem two_ciphertexts_show {ciphertext written : Buffer n} {ciphertext' written' : Buffer m}
    {ciphertextLen writtenLen ciphertextLen' writtenLen' : UInt64}
    (hplain : plaintextLen.toNat ≤ plaintext.length)
    (hplain' : plaintextLen'.toNat ≤ plaintext'.length)
    (hroom : 16 * (plaintextLen.toNat / 16 + 1) ≤ n)
    (hroom' : 16 * (plaintextLen'.toNat / 16 + 1) ≤ m)
    (hrun : aesCbcEncrypt cipher calls key iv plaintext plaintextLen ciphertext ciphertextLen =
      .ok (0, written, writtenLen))
    (hrun' : aesCbcEncrypt cipher calls' key iv' plaintext' plaintextLen' ciphertext'
      ciphertextLen' = .ok (0, written', writtenLen')) :
    (plaintext.take (low32 plaintextLen) = plaintext'.take (low32 plaintextLen') →
      ∀ i ≤ low32 plaintextLen / 16,
        blockAt 16 written.bytes i = blockAt 16 written'.bytes i ↔ iv = iv') ∧
    (iv = iv' → ∀ k, k ≤ low32 plaintextLen / 16 + 1 → k ≤ low32 plaintextLen' / 16 + 1 →
      (written.bytes.take (16 * k) = written'.bytes.take (16 * k) ↔
        (Pkcs7.pad 16 (plaintext.take (low32 plaintextLen))).take (16 * k) =
          (Pkcs7.pad 16 (plaintext'.take (low32 plaintextLen'))).take (16 * k))) := by
  rcases aesCbcEncrypt_blocks hplain hroom hrun with ⟨rest, hbytes⟩
  rcases aesCbcEncrypt_blocks hplain' hroom' hrun' with ⟨rest', hbytes'⟩
  have hcount : ∀ {iv : Buffer 16} {blocks : List AesBlock},
      ((aes256Cbc cipher key).encryptBlocks iv blocks).1.length = blocks.length :=
    length_runBlocks _ _ _
  constructor
  · intro htext i hi
    have hsame : low32 plaintextLen = low32 plaintextLen' := by
      rw [← List.length_take_of_le ((low32_le plaintextLen).trans hplain), htext,
        List.length_take_of_le ((low32_le plaintextLen').trans hplain')]
    have hblocks : paddedBlocks plaintext' plaintextLen' =
        paddedBlocks plaintext plaintextLen := by
      rw [paddedBlocks, paddedBlocks, htext, hsame]
    have hinside : i < (paddedBlocks plaintext plaintextLen).length := by
      rw [length_paddedBlocks]
      omega
    rw [hbytes, hbytes', hblocks,
      blockAt_eq_iff _ _ (by rwa [hcount]) (by rwa [hcount])]
    exact cbc_getElem?_eq_iff_iv cipher key iv iv' hinside
  · rintro rfl k hk hk'
    have hfront : ((paddedBlocks plaintext plaintextLen).take k).length =
        ((paddedBlocks plaintext' plaintextLen').take k).length := by
      rw [List.length_take, List.length_take, length_paddedBlocks, length_paddedBlocks]
      omega
    rw [take_pad_eq hplain hk, take_pad_eq hplain' hk', blockBytes_inj hfront, hbytes, hbytes',
      take_blockBytes _ _ (by rwa [hcount, length_paddedBlocks]),
      take_blockBytes _ _ (by rwa [hcount, length_paddedBlocks]), blockBytes_inj (by
        rw [List.length_take, List.length_take, hcount, hcount, length_paddedBlocks,
          length_paddedBlocks]
        omega)]
    exact (aes256Cbc cipher key).take_encryptBlocks_eq_iff iv _ _ k

/-- An IV that is 1 in its first byte and 0 elsewhere. -/
def secondIv : AesBlock :=
  Buffer.initialised 16 [0x01]

/-- The sample block under the second IV, encrypted with AES-256 under a zero key. -/
def sampleBlockUnderSecondIv : AesBlock :=
  ⟨[0x4C, 0x44, 0x76, 0x84, 0x73, 0x5E, 0x16, 0x40,
    0x98, 0x1E, 0x13, 0xB7, 0x0E, 0xE5, 0x6A, 0x2B], rfl⟩

/-- The padding behind it. -/
def paddingUnderSecondIv : AesBlock :=
  ⟨[0xDC, 0xC2, 0x16, 0x20, 0x27, 0xFE, 0x34, 0x84,
    0x6B, 0x89, 0x51, 0x3B, 0x0C, 0x79, 0xA7, 0x2D], rfl⟩

/-- A cipher that is AES-256 under a zero key on the sample block and its padding, under a zero
IV and under the second one. -/
def fourBlockCipher : BlockCipher (Buffer 32) AesBlock where
  encrypt _ := Equiv.swap sampleBlock sampleBlockEncrypted *
    Equiv.swap samplePadding samplePaddingEncrypted *
    Equiv.swap (xorBlock sampleBlock secondIv) sampleBlockUnderSecondIv *
    Equiv.swap (xorBlock sampleBlockUnderSecondIv (Buffer.initialised 16 (List.replicate 16 16)))
      paddingUnderSecondIv
  decrypt _ := (Equiv.swap sampleBlock sampleBlockEncrypted *
    Equiv.swap samplePadding samplePaddingEncrypted *
    Equiv.swap (xorBlock sampleBlock secondIv) sampleBlockUnderSecondIv *
    Equiv.swap (xorBlock sampleBlockUnderSecondIv (Buffer.initialised 16 (List.replicate 16 16)))
      paddingUnderSecondIv).symm
  decrypt_encrypt _ b := Equiv.symm_apply_apply _ b

/-- Under the second IV the sample block is encrypted differently. -/
theorem sample_block_under_two_ivs :
    ∃ written written' : Buffer 32,
      aesCbcEncrypt fourBlockCipher .success (Buffer.zero 32) (Buffer.zero 16) sampleBlock.bytes 16
        (Buffer.zero 32) 0 = .ok (0, written, 32) ∧
      aesCbcEncrypt fourBlockCipher .success (Buffer.zero 32) secondIv sampleBlock.bytes 16
        (Buffer.zero 32) 0 = .ok (0, written', 32) ∧
      blockAt 16 written.bytes 1 ≠ blockAt 16 written'.bytes 1 := by
  have hrun : aesCbcEncrypt fourBlockCipher .success (Buffer.zero 32) (Buffer.zero 16)
      sampleBlock.bytes 16 (Buffer.zero 32) 0 =
        .ok (0, Buffer.initialised 32 sampleCiphertext, 32) := by rfl
  have hrun' : aesCbcEncrypt fourBlockCipher .success (Buffer.zero 32) secondIv
      sampleBlock.bytes 16 (Buffer.zero 32) 0 =
        .ok (0, Buffer.initialised 32 (sampleBlockUnderSecondIv.bytes ++
          paddingUnderSecondIv.bytes), 32) := by rfl
  refine ⟨_, _, hrun, hrun', ?_⟩
  intro hsame
  have hiv := ((two_ciphertexts_show (by decide) (by decide) (by decide) (by decide) hrun
    hrun').1 rfl 1 (by decide)).mp hsame
  exact absurd hiv (by decide)

end AutomotiveSecurity.AesCbc
