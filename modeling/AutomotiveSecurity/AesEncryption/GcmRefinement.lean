import AutomotiveSecurity.AesEncryption.AesGcm

/-!
# One-shot encryption and the functions of {lit}`aes_gcm.c`

The functions spread one authenticated encryption or decryption over several calls.
For lengths that an {lit}`int` can hold, what they report as a success is the one-shot
operation on the caller's bytes.

Main results:

- Theorems {lit}`aesGcmEncrypt_refines` and {lit}`aesGcmDecrypt_refines`: under every pattern of
  failures, a returned length comes with the one-shot result.
- Theorem {lit}`gcm_wrappers_refine_aead`: this together with the round trip and the meaning
  of -2.
-/

namespace AutomotiveSecurity.AesGcm

open HostLength Memory OpenSSL

variable {τ : Type} {n : Nat}

section Refinement

variable {m : Nat} (aead : GcmFunction τ) (key : Buffer 32) (iv : Buffer 12)
  {aad : Option (List UInt8)} {aadLen : UInt64}

/-- {lit}`aes_gcm_encrypt` returns a length only for the one-shot encryption. -/
theorem aesGcmEncrypt_refines (calls : GcmCalls) {plaintext : List UInt8}
    {plaintextLen : UInt64} (ciphertext : Buffer n) (tag : τ)
    (haad : ∀ object, aad = some object → aadLen.toNat ≤ object.length)
    (haadMax : aadLen.toNat < 2 ^ 31) (hplain : plaintextLen.toNat ≤ plaintext.length)
    (hmax : plaintextLen.toNat < 2 ^ 31) (hroom : plaintextLen.toNat ≤ n) :
    ∃ r written tagged,
      aesGcmEncrypt aead calls key iv aad aadLen plaintext plaintextLen ciphertext tag =
        .ok (r, written, tagged) ∧
      (0 ≤ r → r.toInt = plaintextLen.toNat ∧
        (written.bytes.take plaintextLen.toNat, tagged) =
          aead.encrypt key.bytes iv.bytes (aadBytes aad aadLen)
            (plaintext.take plaintextLen.toNat)) := by
  rcases aesGcmEncrypt_eq aead calls key iv ciphertext tag haad hplain hroom with ⟨_, _, hresult⟩
  obtain ⟨⟨r, written, tagged⟩, hrun⟩ :
      ∃ result, aesGcmEncrypt aead calls key iv aad aadLen plaintext plaintextLen ciphertext
        tag = .ok result := ⟨_, hresult⟩
  refine ⟨r, written, tagged, hrun, fun hr => ?_⟩
  rcases aesGcmEncrypt_returns aead key iv haad hplain hroom hrun hr with
    ⟨_, hlength, hwritten, htag⟩
  rw [low32_of_max hmax] at hwritten htag
  rw [processedAad_of_max aad haadMax] at htag
  refine ⟨?_, ?_⟩
  · rw [hlength, toInt_sizeToInt_of_max hmax]
  · rw [hwritten, htag]
    rfl

/-- {lit}`aes_gcm_decrypt` returns a length only for the one-shot decryption. -/
theorem aesGcmDecrypt_refines [DecidableEq τ] (calls : GcmCalls) {ciphertext : List UInt8}
    {ciphertextLen : UInt64} (tag : τ) (plaintext : Buffer n)
    (haad : ∀ object, aad = some object → aadLen.toNat ≤ object.length)
    (haadMax : aadLen.toNat < 2 ^ 31) (hcipher : ciphertextLen.toNat ≤ ciphertext.length)
    (hmax : ciphertextLen.toNat < 2 ^ 31) (hroom : ciphertextLen.toNat ≤ n) :
    ∃ r written,
      aesGcmDecrypt aead calls key iv aad aadLen ciphertext ciphertextLen tag plaintext =
        .ok (r, written) ∧
      (0 ≤ r → r.toInt = ciphertextLen.toNat ∧
        aead.decrypt key.bytes iv.bytes (aadBytes aad aadLen)
            (ciphertext.take ciphertextLen.toNat) tag =
          some (written.bytes.take ciphertextLen.toNat)) := by
  rcases aesGcmDecrypt_of_max aead calls key iv tag plaintext haad haadMax hcipher hmax hroom with
    ⟨written, hwritten, hrun⟩
  by_cases htext : textAccepted calls aad aadLen ciphertextLen = true
  · rw [if_pos htext] at hrun
    by_cases htag : calls.tag = true
    · rw [if_pos htag] at hrun
      by_cases hright : calls.final = true ∧
          tag = aead.tag key.bytes iv.bytes (aadBytes aad aadLen)
            (ciphertext.take ciphertextLen.toNat)
      · rw [if_pos hright] at hrun
        refine ⟨_, _, hrun, fun _ => ⟨toInt_sizeToInt_of_max hmax, ?_⟩⟩
        rw [StreamAead.decrypt_eq_some_iff, hwritten]
        exact ⟨hright.2, rfl⟩
      · rw [if_neg hright] at hrun
        exact ⟨_, _, hrun, fun hneg => absurd hneg (by decide)⟩
    · rw [if_neg htag] at hrun
      exact ⟨_, _, hrun, fun hneg => absurd hneg (by decide)⟩
  · rw [if_neg htext] at hrun
    exact ⟨_, _, hrun, fun hneg => absurd hneg (by decide)⟩

/-- Without a failing call {lit}`aes_gcm_decrypt` returns -2 exactly for a wrong tag, and the
length otherwise. -/
theorem aesGcmDecrypt_success [DecidableEq τ] {ciphertext : List UInt8}
    {ciphertextLen : UInt64} (tag : τ) (plaintext : Buffer n)
    (haad : ∀ object, aad = some object → aadLen.toNat ≤ object.length)
    (haadMax : aadLen.toNat < 2 ^ 31) (hcipher : ciphertextLen.toNat ≤ ciphertext.length)
    (hmax : ciphertextLen.toNat < 2 ^ 31) (hroom : ciphertextLen.toNat ≤ n) :
    ∃ written : Buffer n,
      aesGcmDecrypt aead .success key iv aad aadLen ciphertext ciphertextLen tag plaintext =
        .ok (if tag = aead.tag key.bytes iv.bytes (aadBytes aad aadLen)
            (ciphertext.take ciphertextLen.toNat) then sizeToInt ciphertextLen else -2, written) ∧
      written.bytes.take ciphertextLen.toNat =
        aead.crypt key.bytes iv.bytes (ciphertext.take ciphertextLen.toNat) := by
  rcases aesGcmDecrypt_of_max aead .success key iv tag plaintext haad haadMax hcipher hmax hroom
      with ⟨written, hwritten, hrun⟩
  rw [if_pos (textAccepted_success aad haadMax hmax), if_pos (by rfl)] at hrun
  refine ⟨written, ?_, hwritten⟩
  rw [hrun]
  by_cases hright : tag = aead.tag key.bytes iv.bytes (aadBytes aad aadLen)
      (ciphertext.take ciphertextLen.toNat)
  · rw [if_pos ⟨rfl, hright⟩, if_pos hright]
  · rw [if_neg fun h => hright h.2, if_neg hright]

/-- Without a failing call the ciphertext and the tag of {lit}`aes_gcm_encrypt` are decrypted
to the plaintext, with its length. -/
theorem aesGcm_round_trip [DecidableEq τ] {plaintext : List UInt8} {plaintextLen : UInt64}
    (ciphertext : Buffer n) (tag : τ) (decrypted : Buffer m)
    (haad : ∀ object, aad = some object → aadLen.toNat ≤ object.length)
    (haadMax : aadLen.toNat < 2 ^ 31) (hplain : plaintextLen.toNat ≤ plaintext.length)
    (hmax : plaintextLen.toNat < 2 ^ 31) (hroom : plaintextLen.toNat ≤ n)
    (hroom' : plaintextLen.toNat ≤ m) :
    ∃ r written tagged decrypted',
      aesGcmEncrypt aead .success key iv aad aadLen plaintext plaintextLen ciphertext tag =
        .ok (r, written, tagged) ∧
      aesGcmDecrypt aead .success key iv aad aadLen written.bytes (intToSize r) tagged
          decrypted = .ok (r, decrypted') ∧
      r.toInt = plaintextLen.toNat ∧
      decrypted'.bytes.take plaintextLen.toNat = plaintext.take plaintextLen.toNat := by
  have haadLow : low32 aadLen < 2 ^ 31 := by rwa [low32_of_max haadMax]
  rcases aesGcmEncrypt_of_low32 aead key iv ciphertext tag haad hplain hroom
      (by rwa [low32_of_max hmax]) fun _ => haadLow with
    ⟨written, hrun, hwritten⟩
  rw [low32_of_max hmax, processedAad_of_max aad haadMax] at hrun
  rw [low32_of_max hmax] at hwritten
  have hread : written.bytes.take plaintextLen.toNat =
      aead.crypt key.bytes iv.bytes (plaintext.take plaintextLen.toNat) := by
    rw [hwritten, List.take_left' (aead.length_crypt_take key.bytes iv.bytes hplain)]
  rcases aesGcmDecrypt_success aead key iv
      (aead.tag key.bytes iv.bytes (aadBytes aad aadLen)
      (aead.crypt key.bytes iv.bytes (plaintext.take plaintextLen.toNat)))
      decrypted haad haadMax (by rw [written.size_eq]; exact hroom) hmax hroom' with
    ⟨decrypted', hrun', hread'⟩
  refine ⟨_, written, _, decrypted', hrun, ?_, toInt_sizeToInt_of_max hmax, ?_⟩
  · rw [intToSize_sizeToInt hmax, hrun', hread, if_pos rfl]
  · rw [hread', hread, StreamAead.crypt_crypt]

end Refinement

/-- For all keys, IVs, associated data (a null pointer, empty or not) and texts with
lengths up to {lit}`INT_MAX`: under every pattern of failures {lit}`aes_gcm_encrypt` returns a
length only if it is that of the plaintext and ciphertext and tag are those of the
one-shot encryption, and {lit}`aes_gcm_decrypt` returns one only if it is that of the
ciphertext, the tag is right and the buffer holds the decryption.  Without a failing call
it returns -2 exactly for a wrong tag, and gives back what {lit}`aes_gcm_encrypt` was given. -/
theorem gcm_wrappers_refine_aead [DecidableEq τ] {m : Nat} (aead : GcmFunction τ)
    (key : Buffer 32) (iv : Buffer 12) (aad : Option (List UInt8)) (aadLen : UInt64)
    (plaintext : List UInt8) (plaintextLen : UInt64) (received : List UInt8)
    (receivedLen : UInt64) (ciphertext : Buffer n) (tag receivedTag : τ)
    (decrypted : Buffer m)
    (haad : ∀ object, aad = some object → aadLen.toNat ≤ object.length)
    (haadMax : aadLen.toNat < 2 ^ 31) (hplain : plaintextLen.toNat ≤ plaintext.length)
    (hplainMax : plaintextLen.toNat < 2 ^ 31) (hroom : plaintextLen.toNat ≤ n)
    (hroom' : plaintextLen.toNat ≤ m) (hreceived : receivedLen.toNat ≤ received.length)
    (hreceivedMax : receivedLen.toNat < 2 ^ 31) (hreceivedRoom : receivedLen.toNat ≤ m) :
    (∀ calls, ∃ r written tagged,
      aesGcmEncrypt aead calls key iv aad aadLen plaintext plaintextLen ciphertext tag =
        .ok (r, written, tagged) ∧
      (0 ≤ r → r.toInt = plaintextLen.toNat ∧
        (written.bytes.take plaintextLen.toNat, tagged) =
          aead.encrypt key.bytes iv.bytes (aadBytes aad aadLen)
            (plaintext.take plaintextLen.toNat))) ∧
    (∀ calls, ∃ r written,
      aesGcmDecrypt aead calls key iv aad aadLen received receivedLen receivedTag decrypted =
        .ok (r, written) ∧
      (0 ≤ r → r.toInt = receivedLen.toNat ∧
        aead.decrypt key.bytes iv.bytes (aadBytes aad aadLen)
            (received.take receivedLen.toNat) receivedTag =
          some (written.bytes.take receivedLen.toNat))) ∧
    (∃ r written,
      aesGcmDecrypt aead .success key iv aad aadLen received receivedLen receivedTag
          decrypted = .ok (r, written) ∧
      (r = -2 ↔ receivedTag ≠ aead.tag key.bytes iv.bytes (aadBytes aad aadLen)
        (received.take receivedLen.toNat))) ∧
    (∃ r written tagged decrypted',
      aesGcmEncrypt aead .success key iv aad aadLen plaintext plaintextLen ciphertext tag =
        .ok (r, written, tagged) ∧
      aesGcmDecrypt aead .success key iv aad aadLen written.bytes (intToSize r) tagged
          decrypted = .ok (r, decrypted') ∧
      r.toInt = plaintextLen.toNat ∧
      decrypted'.bytes.take plaintextLen.toNat = plaintext.take plaintextLen.toNat) := by
  refine ⟨?_, ?_, ?_, ?_⟩
  · intro calls
    exact aesGcmEncrypt_refines aead key iv calls ciphertext tag haad haadMax hplain hplainMax
      hroom
  · intro calls
    exact aesGcmDecrypt_refines aead key iv calls receivedTag decrypted haad haadMax hreceived
      hreceivedMax hreceivedRoom
  · rcases aesGcmDecrypt_success aead key iv receivedTag decrypted haad haadMax hreceived
        hreceivedMax hreceivedRoom with
      ⟨written, hrun, _⟩
    refine ⟨_, written, hrun, ?_⟩
    by_cases hright : receivedTag = aead.tag key.bytes iv.bytes (aadBytes aad aadLen)
        (received.take receivedLen.toNat)
    · rw [if_pos hright]
      refine iff_of_false ?_ (fun hwrong => hwrong hright)
      intro hminus
      -- A converted length is not negative.
      have hvalue := toInt_sizeToInt_of_max hreceivedMax
      rw [hminus] at hvalue
      exact absurd hvalue (by simp)
    · rw [if_neg hright]
      exact iff_of_true rfl hright
  · exact aesGcm_round_trip aead key iv ciphertext tag decrypted haad haadMax hplain hplainMax
      hroom hroom'

/-- The sample text goes through both functions, and the tampered ciphertext is refused. -/
theorem sample_text_round_trip :
    (∃ r written,
      aesGcmDecrypt sampleGcm .success (Buffer.zero 32) (Buffer.zero 12) none 0
          tamperedCiphertext 3 sampleSealed.2 (Buffer.zero 4) = .ok (r, written) ∧ r = -2) ∧
    (∃ r written tagged decrypted,
      aesGcmEncrypt sampleGcm .success (Buffer.zero 32) (Buffer.zero 12) none 0 sampleText 3
          (Buffer.zero 4) (Buffer.zero 16) = .ok (r, written, tagged) ∧
        aesGcmDecrypt sampleGcm .success (Buffer.zero 32) (Buffer.zero 12) none 0
          written.bytes (intToSize r) tagged (Buffer.zero 4) = .ok (r, decrypted) ∧
        decrypted.bytes.take 3 = sampleText) := by
  rcases gcm_wrappers_refine_aead sampleGcm (Buffer.zero 32) (Buffer.zero 12) none 0 sampleText 3
      tamperedCiphertext 3 (Buffer.zero 4) (Buffer.zero 16) sampleSealed.2 (Buffer.zero 4)
      (by simp) (by decide) (by decide) (by decide) (by decide) (by decide) (by decide)
      (by decide) (by decide) with
    ⟨_, _, ⟨r, written, hrun, hminus⟩, r', written', tagged, decrypted, hrun', hback, _, htext⟩
  exact ⟨⟨r, written, hrun, hminus.mpr (by decide)⟩,
    r', written', tagged, decrypted, hrun', hback, htext⟩

end AutomotiveSecurity.AesGcm
