import AutomotiveSecurity.AesEncryption.AesCbc
import AutomotiveSecurity.AesEncryption.AesGcm

/-!
# Which input lengths are covered

The encryption functions of {lit}`aes_cbc.c` and {lit}`aes_gcm.c` take {lit}`size_t` lengths and
hand them over as {lit}`int`.  A length that arrives negative is refused.  One that wraps to
a small value is not: the rest of the plaintext is dropped, or the rest of the associated
data is left out of the tag, and the functions report success.

Main results:

- Theorem {lit}`cbcCovered_iff`: the lengths for which a successful CBC encryption covers the
  whole plaintext.
- Theorem {lit}`gcmCovered_iff`: the same for both lengths of a GCM encryption.

Current gaps:

- The tag is taken to be injective in the associated data; for tags of 16 bytes this is
  an idealisation.
-/

namespace AutomotiveSecurity.Coverage

open AesCbc AesGcm HostLength Memory OpenSSL

/-! ## CBC -/

/-- Whatever {lit}`aes_cbc_encrypt` reports as a success has the length of the padded plaintext,
and {lit}`aes_cbc_decrypt` gives all of the plaintext back. -/
def CbcCovered (cipher : BlockCipher (Buffer 32) AesBlock) (key : Buffer 32) (iv : Buffer 16)
    (plaintext : List UInt8) (plaintextLen : UInt64) : Prop :=
  ∀ ⦃n m : Nat⦄ (calls : CipherCalls) (ciphertext written : Buffer n)
    (ciphertextLen writtenLen : UInt64) (decrypted : Buffer m) (decryptedLen : UInt64),
    16 * (plaintextLen.toNat / 16 + 1) ≤ n → plaintextLen.toNat ≤ m →
    aesCbcEncrypt cipher calls key iv plaintext plaintextLen ciphertext ciphertextLen =
      .ok (0, written, writtenLen) →
    writtenLen.toNat = 16 * (plaintextLen.toNat / 16 + 1) ∧
      ∃ out,
        aesCbcDecrypt cipher .success key iv written.bytes writtenLen decrypted decryptedLen =
          .ok (0, out, plaintextLen) ∧
        out.bytes.take plaintextLen.toNat = plaintext.take plaintextLen.toNat

section Cbc

variable (cipher : BlockCipher (Buffer 32) AesBlock) (key : Buffer 32) (iv : Buffer 16)
  {plaintext : List UInt8} {plaintextLen : UInt64}

/-- From {lit}`2 ^ 31` on a sum of two {lit}`int` lengths comes back as a {lit}`size_t` that arrives
negative again. -/
theorem sizeToInt_intToSize_lt_zero : sizeToInt (intToSize (Int32.ofNat (2 ^ 31))) < 0 := by
  decide

/-- Shorter plaintexts than the last block below {lit}`INT_MAX` are covered. -/
theorem cbcCovered_of_lt (hplain : plaintextLen.toNat ≤ plaintext.length)
    (hlt : plaintextLen.toNat < 2 ^ 31 - 16) :
    CbcCovered cipher key iv plaintext plaintextLen := by
  intro n m calls ciphertext written ciphertextLen writtenLen decrypted decryptedLen hroom
    hroom' hrun
  have hlow : low32 plaintextLen = plaintextLen.toNat := low32_of_lt (by omega)
  rcases aesCbcEncrypt_accepts cipher key iv hplain hrun with ⟨hcalls, hnonneg⟩
  obtain ⟨written', hrun', hwritten⟩ :=
    aesCbcEncrypt_of_accepted cipher key iv ciphertext ciphertextLen hcalls hnonneg hplain hroom
  rw [hlow] at hrun' hwritten
  rw [hrun] at hrun'
  cases hrun'
  have hlength : (plaintext.take plaintextLen.toNat).length = plaintextLen.toNat :=
    List.length_take_of_le hplain
  have hcount : (intToSize (Int32.ofNat (16 * (plaintextLen.toNat / 16 + 1)))).toNat =
      16 * (plaintextLen.toNat / 16 + 1) := toNat_intToSize_ofNat (by omega)
  rcases aesCbcDecrypt_of_padded cipher key iv (plaintext.take plaintextLen.toNat) decrypted
      decryptedLen (by rw [hcount, written.size_eq]; exact hroom) (by rw [hcount]; omega)
      (by rw [hlength]; exact hroom') (by rw [hcount]; exact hwritten) with
    ⟨out, hdecrypt, hout⟩
  have hback : intToSize (Int32.ofNat plaintextLen.toNat) = plaintextLen :=
    UInt64.toNat.inj (toNat_intToSize_ofNat (by omega))
  rw [hlength] at hdecrypt hout
  rw [hback] at hdecrypt
  exact ⟨hcount, out, hdecrypt, hout⟩

/-- A plaintext whose length arrives negative is refused. -/
theorem cbcCovered_of_negative (hplain : plaintextLen.toNat ≤ plaintext.length)
    (hneg : 2 ^ 31 ≤ low32 plaintextLen) : CbcCovered cipher key iv plaintext plaintextLen := by
  intro n m calls ciphertext written ciphertextLen writtenLen decrypted decryptedLen _ _ hrun
  rcases aesCbcEncrypt_accepts cipher key iv hplain hrun with ⟨_, hnonneg⟩
  exact absurd (sizeToInt_lt_zero_iff.mpr hneg) hnonneg

/-- All other plaintexts are encrypted with success, but to a ciphertext of another length
or to one that cannot be decrypted. -/
theorem not_cbcCovered (hplain : plaintextLen.toNat ≤ plaintext.length)
    (hlow : low32 plaintextLen < 2 ^ 31) (hle : 2 ^ 31 - 16 ≤ plaintextLen.toNat) :
    ¬CbcCovered cipher key iv plaintext plaintextLen := by
  intro hcovered
  have hnonneg : ¬sizeToInt plaintextLen < 0 := sizeToInt_nonneg_iff.mpr hlow
  rcases aesCbcEncrypt_of_accepted cipher key iv
      (Buffer.zero (16 * (plaintextLen.toNat / 16 + 1))) 0
      (⟨rfl, rfl, rfl, rfl⟩ : Accepted .success) hnonneg hplain le_rfl with
    ⟨written, hrun, _⟩
  rcases hcovered .success _ written 0 _ (Buffer.zero plaintextLen.toNat) 0 le_rfl le_rfl hrun with
    ⟨hcount, out, hdecrypt, _⟩
  by_cases hsmall : 16 * (low32 plaintextLen / 16 + 1) < 2 ^ 31
  · rw [toNat_intToSize_ofNat hsmall] at hcount
    omega
  · -- The last block below INT_MAX is padded to INT_MAX + 1 bytes.
    have hfull : 16 * (low32 plaintextLen / 16 + 1) = 2 ^ 31 := by omega
    rw [hfull] at hdecrypt
    exact aesCbcDecrypt_of_negative cipher key iv sizeToInt_intToSize_lt_zero hdecrypt

theorem cbcCovered_iff (hplain : plaintextLen.toNat ≤ plaintext.length) :
    CbcCovered cipher key iv plaintext plaintextLen ↔
      2 ^ 31 ≤ low32 plaintextLen ∨ plaintextLen.toNat < 2 ^ 31 - 16 := by
  constructor
  · intro hcovered
    by_contra hother
    rw [not_or, Nat.not_le, Nat.not_lt] at hother
    exact not_cbcCovered cipher key iv hplain hother.1 hother.2 hcovered
  · rintro (hneg | hlt)
    · exact cbcCovered_of_negative cipher key iv hplain hneg
    · exact cbcCovered_of_lt cipher key iv hplain hlt

end Cbc

/-! ## GCM -/

/-- Whatever {lit}`aes_gcm_encrypt` reports as a success has the length of the plaintext, and
different associated data of the same length give a different ciphertext or tag. -/
structure GcmCovered {τ : Type} (aead : GcmFunction τ) (key : Buffer 32) (iv : Buffer 12)
    (plaintext : List UInt8) (plaintextLen aadLen : UInt64) : Prop where
  length : ∀ ⦃n : Nat⦄ (calls : GcmCalls) (aad : Option (List UInt8))
    (ciphertext written : Buffer n) (tag tagged : τ) (r : Int32),
    (∀ object, aad = some object → aadLen.toNat ≤ object.length) → plaintextLen.toNat ≤ n →
    aesGcmEncrypt aead calls key iv aad aadLen plaintext plaintextLen ciphertext tag =
      .ok (r, written, tagged) → 0 ≤ r → r.toInt = plaintextLen.toNat
  aad : ∀ ⦃n m : Nat⦄ (calls calls' : GcmCalls) (aad aad' : List UInt8)
    (ciphertext written : Buffer n) (ciphertext' written' : Buffer m)
    (tag tagged tag' tagged' : τ) (r r' : Int32),
    aad.length = aadLen.toNat → aad'.length = aadLen.toNat → plaintextLen.toNat ≤ n →
    plaintextLen.toNat ≤ m →
    aesGcmEncrypt aead calls key iv (some aad) aadLen plaintext plaintextLen ciphertext tag =
      .ok (r, written, tagged) → 0 ≤ r →
    aesGcmEncrypt aead calls' key iv (some aad') aadLen plaintext plaintextLen ciphertext'
      tag' = .ok (r', written', tagged') → 0 ≤ r' →
    written.bytes.take plaintextLen.toNat = written'.bytes.take plaintextLen.toNat →
    tagged = tagged' → aad = aad'

section Gcm

variable {τ : Type} {n : Nat} (aead : GcmFunction τ) (key : Buffer 32) (iv : Buffer 12)
  {plaintext : List UInt8} {plaintextLen aadLen : UInt64}

/-- Associated data of the given length is an object of at least that length. -/
theorem aad_fits {aad : List UInt8} (haad : aad.length = aadLen.toNat) :
    ∀ object, some aad = some object → aadLen.toNat ≤ object.length := by
  rintro object ⟨⟩
  exact haad.ge

/-- Accepted lengths do not arrive negative. -/
theorem low32_lt_of_accepted {calls : GcmCalls} {aad : Option (List UInt8)}
    (haccepted : textAccepted calls aad aadLen plaintextLen = true) :
    low32 plaintextLen < 2 ^ 31 ∧ (aad.isSome → low32 aadLen < 2 ^ 31) := by
  rw [textAccepted, Bool.and_eq_true_iff, Bool.and_eq_true_iff] at haccepted
  rcases haccepted with ⟨hstart, _, htext⟩
  refine ⟨sizeToInt_nonneg_iff.mp (by simpa using htext), ?_⟩
  intro hsome
  rcases Option.isSome_iff_exists.mp hsome with ⟨object, rfl⟩
  rw [startAccepted, Bool.and_eq_true_iff] at hstart
  by_cases hnil : aadLen = 0
  · subst hnil
    decide
  · have haad : calls.updateAad = true ∧ ¬sizeToInt aadLen < 0 := by
      simpa [hnil] using hstart.2
    exact sizeToInt_nonneg_iff.mp haad.2

/-- Lengths that arrive negative are refused, and lengths up to {lit}`INT_MAX` are covered. -/
theorem gcmCovered_of_lengths
    (hinj : ∀ key nonce ciphertext, Function.Injective fun aad => aead.tag key nonce aad ciphertext)
    (hplain : plaintextLen.toNat ≤ plaintext.length)
    (hlengths : low32 plaintextLen < 2 ^ 31 → plaintextLen.toNat < 2 ^ 31 ∧
      (low32 aadLen < 2 ^ 31 → aadLen.toNat < 2 ^ 31)) :
    GcmCovered aead key iv plaintext plaintextLen aadLen := by
  constructor
  · intro n calls aad ciphertext written tag tagged r haad hroom hrun hr
    rcases aesGcmEncrypt_returns aead key iv haad hplain hroom hrun hr with ⟨haccepted, rfl, _⟩
    exact toInt_sizeToInt_of_max (hlengths (low32_lt_of_accepted haccepted).1).1
  · intro n m calls calls' aad aad' ciphertext written ciphertext' written' tag tagged tag'
      tagged' r r' haad haad' hroom hroom' hrun hr hrun' hr' _ hsame
    rcases aesGcmEncrypt_returns aead key iv (aad_fits haad) hplain hroom hrun hr with
      ⟨haccepted, _, _, htag⟩
    rcases aesGcmEncrypt_returns aead key iv (aad_fits haad') hplain hroom' hrun' hr' with
      ⟨_, _, _, htag'⟩
    rcases low32_lt_of_accepted haccepted with ⟨hlow, haadLow⟩
    have haadMax := (hlengths hlow).2 (haadLow rfl)
    rw [htag, htag'] at hsame
    have hprocessed := hinj _ _ _ hsame
    simp only [processedAad, low32_of_max haadMax] at hprocessed
    rwa [List.take_of_length_le haad.le, List.take_of_length_le haad'.le] at hprocessed

/-- The rest of a plaintext whose length wraps around is dropped. -/
theorem toNat_lt_of_gcmCovered (hplain : plaintextLen.toNat ≤ plaintext.length)
    (hlow : low32 plaintextLen < 2 ^ 31) (tag : τ)
    (hcovered : GcmCovered aead key iv plaintext plaintextLen aadLen) :
    plaintextLen.toNat < 2 ^ 31 := by
  have haad : ∀ object : List UInt8, none = some object → aadLen.toNat ≤ object.length := by
    simp
  rcases aesGcmEncrypt_of_low32 aead key iv (Buffer.zero plaintextLen.toNat) tag haad hplain le_rfl
      hlow (by simp) with
    ⟨written, hrun, _⟩
  have hlength := hcovered.length _ _ _ _ _ _ _ haad le_rfl hrun (zero_le_sizeToInt hlow)
  rw [toInt_sizeToInt hlow] at hlength
  omega

/-- The rest of associated data whose length wraps around is not authenticated: two strings
that differ only there have the same ciphertext and the same tag. -/
theorem aadLen_lt_of_gcmCovered (hplain : plaintextLen.toNat ≤ plaintext.length)
    (hlow : low32 plaintextLen < 2 ^ 31) (haadLow : low32 aadLen < 2 ^ 31) (tag : τ)
    (hcovered : GcmCovered aead key iv plaintext plaintextLen aadLen) :
    aadLen.toNat < 2 ^ 31 := by
  by_contra hlong
  obtain ⟨rest, hrest⟩ : ∃ rest, aadLen.toNat = low32 aadLen + (rest + 1) :=
    ⟨aadLen.toNat - low32 aadLen - 1, by omega⟩
  obtain ⟨aad, haad⟩ : ∃ aad : UInt8 → List UInt8, aad = fun last =>
    List.replicate (low32 aadLen) 0 ++ List.replicate (rest + 1) last := ⟨_, rfl⟩
  have hlength : ∀ last, (aad last).length = aadLen.toNat := by
    intro last
    rw [haad, List.length_append, List.length_replicate, List.length_replicate, hrest]
  have hprocessed : ∀ last, processedAad (some (aad last)) aadLen =
      List.replicate (low32 aadLen) 0 := by
    intro last
    rw [processedAad, haad, List.take_left' List.length_replicate]
  rcases aesGcmEncrypt_of_low32 aead key iv (Buffer.zero plaintextLen.toNat) tag
      (aad_fits (hlength 0)) hplain le_rfl hlow fun _ => haadLow with
    ⟨written, hrun, hwritten⟩
  rcases aesGcmEncrypt_of_low32 aead key iv (Buffer.zero plaintextLen.toNat) tag
      (aad_fits (hlength 1)) hplain le_rfl hlow fun _ => haadLow with
    ⟨written', hrun', hwritten'⟩
  have hnonneg : 0 ≤ sizeToInt plaintextLen := zero_le_sizeToInt hlow
  have hsame : aad 0 = aad 1 :=
    hcovered.aad _ _ _ _ _ _ _ _ _ _ _ _ _ _ (hlength 0) (hlength 1) le_rfl le_rfl hrun
      hnonneg hrun' hnonneg (by rw [hwritten, hwritten']) (by rw [hprocessed, hprocessed])
  rw [haad] at hsame
  have hlast := List.append_cancel_left hsame
  simp [List.replicate_succ] at hlast

theorem gcmCovered_iff
    (hinj : ∀ key nonce ciphertext, Function.Injective fun aad => aead.tag key nonce aad ciphertext)
    (hplain : plaintextLen.toNat ≤ plaintext.length) :
    GcmCovered aead key iv plaintext plaintextLen aadLen ↔
      2 ^ 31 ≤ low32 plaintextLen ∨
        plaintextLen.toNat < 2 ^ 31 ∧
          (2 ^ 31 ≤ low32 aadLen ∨ aadLen.toNat < 2 ^ 31) := by
  constructor
  · intro hcovered
    -- Any value stands for the old content of the tag buffer.
    have tag : τ := aead.tag [] [] [] []
    by_cases hneg : 2 ^ 31 ≤ low32 plaintextLen
    · exact Or.inl hneg
    · have hlow := Nat.lt_of_not_le hneg
      refine Or.inr ⟨toNat_lt_of_gcmCovered aead key iv hplain hlow tag hcovered, ?_⟩
      by_cases haadNeg : 2 ^ 31 ≤ low32 aadLen
      · exact Or.inl haadNeg
      · exact Or.inr (aadLen_lt_of_gcmCovered aead key iv hplain hlow
          (Nat.lt_of_not_le haadNeg) tag hcovered)
  · intro hlengths
    apply gcmCovered_of_lengths aead key iv hinj hplain
    omega

end Gcm

/-! ## Both modes -/

/-- For every {lit}`size_t` length of the plaintext and of the associated data, and a tag that
is injective in the associated data: a successful CBC encryption covers its whole input
exactly if the length arrives negative, and is refused, or is below
{lit}`INT_MAX + 1 - 16`; a successful GCM encryption covers both of its inputs exactly if
the lengths arrive negative or are up to {lit}`INT_MAX`. -/
theorem lengths_covered_iff {τ : Type} (cipher : BlockCipher (Buffer 32) AesBlock)
    (aead : GcmFunction τ) (key : Buffer 32) (iv : Buffer 16) (nonce : Buffer 12)
    (plaintext : List UInt8) (plaintextLen aadLen : UInt64)
    (hinj : ∀ key nonce ciphertext, Function.Injective fun aad => aead.tag key nonce aad ciphertext)
    (hplain : plaintextLen.toNat ≤ plaintext.length) :
    (CbcCovered cipher key iv plaintext plaintextLen ↔
      2 ^ 31 ≤ low32 plaintextLen ∨ plaintextLen.toNat < 2 ^ 31 - 16) ∧
    (GcmCovered aead key nonce plaintext plaintextLen aadLen ↔
      2 ^ 31 ≤ low32 plaintextLen ∨
        plaintextLen.toNat < 2 ^ 31 ∧
          (2 ^ 31 ≤ low32 aadLen ∨ aadLen.toNat < 2 ^ 31)) := by
  constructor
  · exact cbcCovered_iff cipher key iv hplain
  · exact gcmCovered_iff aead key nonce hinj hplain

/-- The text {lit}`OTA` with its padding. -/
def paddedText : AesBlock :=
  ⟨[0x4F, 0x54, 0x41, 0x0D, 0x0D, 0x0D, 0x0D, 0x0D,
    0x0D, 0x0D, 0x0D, 0x0D, 0x0D, 0x0D, 0x0D, 0x0D], rfl⟩

/-- The padded text encrypted with AES-256 under a zero key. -/
def encryptedText : AesBlock :=
  ⟨[0x94, 0xD4, 0xB2, 0x79, 0x02, 0x6B, 0xD4, 0x92,
    0xEC, 0xDE, 0x93, 0x1B, 0xC8, 0x82, 0xC7, 0x82], rfl⟩

/-- A cipher that is AES-256 under a zero key on the padded text. -/
def sampleCipher : BlockCipher (Buffer 32) AesBlock where
  encrypt _ := Equiv.swap paddedText encryptedText
  decrypt _ := Equiv.swap paddedText encryptedText
  decrypt_encrypt := by simp

/-- The sample tag together with the associated data, which makes it injective in them. -/
def idealGcm : GcmFunction (Buffer 16 × List UInt8) where
  keystream := sampleGcm.keystream
  tag key iv aad ciphertext := (sampleGcm.tag key iv aad ciphertext, aad)

/-- A plaintext of {lit}`2 ^ 32 + 5` bytes is not covered, neither are {lit}`2 ^ 32` bytes of
associated data. -/
theorem wrapped_lengths_not_covered :
    ¬CbcCovered sampleCipher (Buffer.zero 32) (Buffer.zero 16)
        (List.replicate 4294967301 0x41) 4294967301 ∧
      ¬GcmCovered idealGcm (Buffer.zero 32) (Buffer.zero 12) sampleText 3 4294967296 := by
  constructor
  · exact not_cbcCovered sampleCipher _ _ (by rw [List.length_replicate]; decide) (by decide)
      (by decide)
  · intro hcovered
    have hshort : (4294967296 : UInt64).toNat < 2 ^ 31 :=
      aadLen_lt_of_gcmCovered idealGcm _ _ (by decide) (by decide) (by decide)
        (Buffer.zero 16, []) hcovered
    exact absurd hshort (by decide)

/-- The sample text is covered in both modes, in the second one with six bytes of associated
data. -/
theorem sample_text_covered :
    CbcCovered sampleCipher (Buffer.zero 32) (Buffer.zero 16) sampleText 3 ∧
      GcmCovered idealGcm (Buffer.zero 32) (Buffer.zero 12) sampleText 3 6 := by
  have hinj : ∀ key nonce ciphertext,
      Function.Injective fun aad => idealGcm.tag key nonce aad ciphertext :=
    fun _ _ _ _ _ hsame => (Prod.mk.inj hsame).2
  have hiff := lengths_covered_iff sampleCipher idealGcm (Buffer.zero 32) (Buffer.zero 16)
    (Buffer.zero 12) sampleText 3 6 hinj (by decide)
  exact ⟨hiff.1.mpr (Or.inr (by decide)),
    hiff.2.mpr (Or.inr ⟨by decide, Or.inr (by decide)⟩)⟩

end AutomotiveSecurity.Coverage
