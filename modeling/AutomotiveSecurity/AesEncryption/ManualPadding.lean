import AutomotiveSecurity.AesEncryption.Padding
import AutomotiveSecurity.AesEncryption.CbcDecryption

/-!
# The padding functions and the library's padding

{lit}`aes_cbc.c` defines {lit}`add_pkcs7_padding` and {lit}`remove_pkcs7_padding`, but encrypts and
decrypts with the padding of the library.  For text the two agree in both directions;
what the library refuses is what {lit}`add_pkcs7_padding` does not make, and every ciphertext
that does not consist of whole blocks.

Main results:

- Theorem {lit}`manual_padding_agrees`: encryption is the raw encryption of what the first
  function pads, and behind every accepted decryption the second one finds the same length.

Current gaps:

- The raw mode is the one of the model; no function of the file uses it.
- Of a ciphertext longer than {lit}`INT_MAX` only a front is looked at; that is left to
  {lit}`aesCbcDecrypt_inverts_encrypt`.
-/

namespace AutomotiveSecurity.AesCbc

open HostLength Memory OpenSSL

section Agreement

variable {n m : Nat} (cipher : BlockCipher (Buffer 32) AesBlock) (key : Buffer 32)
  (iv : Buffer 16)

/-- What {lit}`aes_cbc_encrypt` makes is the raw encryption of what {lit}`add_pkcs7_padding`
leaves. -/
theorem aesCbcEncrypt_eq_of_padded (text : Buffer n) (len : UInt64) (ciphertext : Buffer m)
    (ciphertextLen : UInt64) (hmax : len.toNat < 2 ^ 31 - 16)
    (htext : 16 * (len.toNat / 16 + 1) ≤ n) (hroom : 16 * (len.toNat / 16 + 1) ≤ m) :
    ∃ (padded : Buffer n) (paddedLen : UInt64) (written : Buffer m),
      addPkcs7Padding text len 16 = .ok (padded, paddedLen) ∧
      aesCbcEncrypt cipher .success key iv text.bytes len ciphertext ciphertextLen =
        .ok (0, written, paddedLen) ∧
      written.bytes.take paddedLen.toNat =
        encryptWhole (aes256Cbc cipher key) iv (padded.bytes.take paddedLen.toNat) := by
  have hsum : len.toNat + Pkcs7.padLength 16 len.toNat = 16 * (len.toNat / 16 + 1) :=
    Pkcs7.add_padLength (by decide) _
  have hlow : low32 len = len.toNat := low32_of_lt (by omega)
  have hvalid : len.toNat ≤ text.bytes.length := by
    rw [text.size_eq]
    omega
  rcases addPkcs7Padding_eq text len 16 (by decide)
      (by simp only [UInt64.reduceToNat]; omega) (by simp only [UInt64.reduceToNat]; omega) with
    ⟨padded, paddedLen, hadd, hlength, htake, _⟩
  have hpaddedLen : paddedLen.toNat = 16 * (len.toNat / 16 + 1) := hlength.trans hsum
  rcases aesCbcEncrypt_of_accepted cipher key iv ciphertext ciphertextLen
      (show Accepted .success from ⟨rfl, rfl, rfl, rfl⟩)
      (sizeToInt_nonneg_of_max (by omega)) hvalid hroom with
    ⟨written, hrun, hread⟩
  rw [hlow] at hrun hread
  have hsame : intToSize (Int32.ofNat (16 * (len.toNat / 16 + 1))) = paddedLen := by
    apply UInt64.toNat.inj
    rw [toNat_intToSize_ofNat (by omega), hpaddedLen]
  rw [hsame] at hrun
  refine ⟨padded, paddedLen, written, hadd, hrun, ?_⟩
  rw [htake, hpaddedLen, hread]
  rfl

variable {calls : CipherCalls} {ciphertext : List UInt8} {len : UInt64}
  {plaintext written : Buffer n} {plaintextLen writtenLen : UInt64}

/-- Only ciphertexts in whole blocks are accepted. -/
theorem whole_of_aesCbcDecrypt (hmax : len.toNat < 2 ^ 31)
    (hcipher : len.toNat ≤ ciphertext.length) (hroom : len.toNat ≤ n)
    (hrun : aesCbcDecrypt cipher calls key iv ciphertext len plaintext plaintextLen =
      .ok (0, written, writtenLen)) :
    16 ∣ len.toNat := by
  rcases opens_of_aesCbcDecrypt plaintext plaintextLen hcipher hroom hrun with
    ⟨text, ⟨-, -, hdata⟩, -⟩
  rw [low32_of_max hmax] at hdata
  have hwhole := ((unpad_decryptWhole_iff _ iv).mpr hdata).1
  rwa [List.length_take_of_le hcipher] at hwhole

/-- The raw decryption of an accepted ciphertext is its text, padded. -/
theorem padded_of_aesCbcDecrypt (raw : Buffer m) (hmax : len.toNat < 2 ^ 31)
    (hcipher : len.toNat ≤ ciphertext.length) (hroom : len.toNat ≤ n)
    (hraw : raw.bytes.take len.toNat =
      decryptWhole (aes256Cbc cipher key) iv (ciphertext.take len.toNat))
    (hrun : aesCbcDecrypt cipher calls key iv ciphertext len plaintext plaintextLen =
      .ok (0, written, writtenLen)) :
    ∃ text, Accepted calls ∧ text.length < len.toNat ∧ writtenLen.toNat = text.length ∧
      written.bytes.take text.length = text ∧ raw.bytes.take len.toNat = Pkcs7.pad 16 text := by
  rcases opens_of_aesCbcDecrypt plaintext plaintextLen hcipher hroom hrun with
    ⟨text, hopens, rfl, hbytes⟩
  rcases hopens.length_lt hcipher with ⟨hshort, hlow⟩
  have hdata := hopens.2.2
  rw [low32_of_max hmax] at hdata hshort
  refine ⟨text, hopens.1, hshort, toNat_intToSize_ofNat (by omega), ?_, ?_⟩
  · rw [hbytes, List.take_left]
  · rw [hraw, hdata]
    apply decryptWhole_encryptWhole
    rw [Pkcs7.length_pad]
    exact Pkcs7.dvd_add_padLength (by decide) _

/-- Behind an accepted decryption {lit}`remove_pkcs7_padding` finds the same length in the raw
decryption. -/
theorem removePkcs7Padding_of_aesCbcDecrypt (raw : Buffer m) (hmax : len.toNat < 2 ^ 31)
    (hcipher : len.toNat ≤ ciphertext.length) (hroom : len.toNat ≤ n) (hvalid : len.toNat ≤ m)
    (hraw : raw.bytes.take len.toNat =
      decryptWhole (aes256Cbc cipher key) iv (ciphertext.take len.toNat))
    (hrun : aesCbcDecrypt cipher calls key iv ciphertext len plaintext plaintextLen =
      .ok (0, written, writtenLen)) :
    removePkcs7Padding raw len = .ok writtenLen ∧
      raw.bytes.take writtenLen.toNat = written.bytes.take writtenLen.toNat := by
  rcases padded_of_aesCbcDecrypt cipher key iv raw hmax hcipher hroom hraw hrun with
    ⟨text, -, hshort, hlen, hwritten, hpad⟩
  rcases removePkcs7Padding_of_pad (by decide) (by decide) hvalid hpad with ⟨k, hremove, hk⟩
  have hsame : k = writtenLen := UInt64.toNat.inj (hk.trans hlen.symm)
  subst hsame
  refine ⟨hremove, ?_⟩
  have htext : (raw.bytes.take len.toNat).take text.length = text := by
    rw [hpad, Pkcs7.pad, List.take_left]
  rw [List.take_take, Nat.min_eq_left hshort.le] at htext
  rw [hlen, htext, hwritten]

/-- A ciphertext is accepted with a length exactly if it consists of whole blocks and its raw
decryption is what {lit}`add_pkcs7_padding` makes of so many bytes. -/
theorem aesCbcDecrypt_accepts_iff_padded (raw : Buffer m) (hmax : len.toNat < 2 ^ 31)
    (hcipher : len.toNat ≤ ciphertext.length) (hroom : len.toNat ≤ n) (hvalid : len.toNat ≤ m)
    (hraw : 16 ∣ len.toNat → raw.bytes.take len.toNat =
      decryptWhole (aes256Cbc cipher key) iv (ciphertext.take len.toNat)) :
    (∃ written : Buffer n,
        aesCbcDecrypt cipher calls key iv ciphertext len plaintext plaintextLen =
          .ok (0, written, writtenLen)) ↔
      Accepted calls ∧ 16 ∣ len.toNat ∧ PaddedFrom raw writtenLen len := by
  rw [paddedFrom_iff hvalid]
  constructor
  · rintro ⟨written, hrun⟩
    have hwhole := whole_of_aesCbcDecrypt cipher key iv hmax hcipher hroom hrun
    rcases removePkcs7Padding_of_aesCbcDecrypt cipher key iv raw hmax hcipher hroom hvalid
      (hraw hwhole) hrun with ⟨_, hfront⟩
    rcases padded_of_aesCbcDecrypt cipher key iv raw hmax hcipher hroom (hraw hwhole) hrun with
      ⟨text, hcalls, hshort, hlen, hwritten, hpad⟩
    refine ⟨hcalls, hwhole, ?_, ?_⟩
    · rw [UInt64.le_iff_toNat_le, hlen]
      exact hshort.le
    · rw [hfront, hlen, hwritten, hpad]
  · rintro ⟨hcalls, hwhole, hle, hpad⟩
    rw [UInt64.le_iff_toNat_le] at hle
    have hfront : (raw.bytes.take writtenLen.toNat).length = writtenLen.toNat :=
      raw.length_take (hle.trans hvalid)
    have hopens : Opens cipher calls key iv ciphertext len
        (raw.bytes.take writtenLen.toNat) := by
      refine ⟨hcalls, sizeToInt_nonneg_of_max hmax, ?_⟩
      rw [low32_of_max hmax, ← hpad, hraw hwhole, encryptWhole_decryptWhole]
      rwa [List.length_take_of_le hcipher]
    rcases aesCbcDecrypt_of_opens plaintext plaintextLen hopens hcipher hroom with
      ⟨written, hrun, _⟩
    have hsame : intToSize (Int32.ofNat (raw.bytes.take writtenLen.toNat).length) =
        writtenLen := by
      apply UInt64.toNat.inj
      rw [hfront, toNat_intToSize_ofNat (by omega)]
    exact ⟨written, by rw [hrun, hsame]⟩

variable (calls plaintext plaintextLen) in
/-- For every text of at most {lit}`INT_MAX - 16` bytes, with room for its padding, and without
a failing call {lit}`aes_cbc_encrypt` reports the length that {lit}`add_pkcs7_padding` returns and
makes the raw encryption of what that function leaves.  {lit}`aes_cbc_decrypt` accepts a
ciphertext of at most {lit}`INT_MAX` bytes with a length exactly if no call fails, the ciphertext
consists of whole blocks and their raw decryption is what {lit}`add_pkcs7_padding` makes of so
many bytes; then {lit}`remove_pkcs7_padding` finds this length too, in front of the same text. -/
theorem manual_padding_agrees (text : Buffer n) (textLen : UInt64) (buffer : Buffer m)
    (oldLen : UInt64) (raw : Buffer m) (hmaxText : textLen.toNat < 2 ^ 31 - 16)
    (htext : 16 * (textLen.toNat / 16 + 1) ≤ n) (hbuffer : 16 * (textLen.toNat / 16 + 1) ≤ m)
    (hmax : len.toNat < 2 ^ 31) (hcipher : len.toNat ≤ ciphertext.length)
    (hroom : len.toNat ≤ n) (hvalid : len.toNat ≤ m)
    (hraw : 16 ∣ len.toNat → raw.bytes.take len.toNat =
      decryptWhole (aes256Cbc cipher key) iv (ciphertext.take len.toNat)) :
    (∃ (padded : Buffer n) (paddedLen : UInt64) (made : Buffer m),
      addPkcs7Padding text textLen 16 = .ok (padded, paddedLen) ∧
      aesCbcEncrypt cipher .success key iv text.bytes textLen buffer oldLen =
        .ok (0, made, paddedLen) ∧
      made.bytes.take paddedLen.toNat =
        encryptWhole (aes256Cbc cipher key) iv (padded.bytes.take paddedLen.toNat)) ∧
    ∀ k,
      ((∃ written, aesCbcDecrypt cipher calls key iv ciphertext len plaintext plaintextLen =
          .ok (0, written, k)) ↔
        Accepted calls ∧ 16 ∣ len.toNat ∧ PaddedFrom raw k len) ∧
      ∀ written, aesCbcDecrypt cipher calls key iv ciphertext len plaintext plaintextLen =
          .ok (0, written, k) →
        removePkcs7Padding raw len = .ok k ∧
          raw.bytes.take k.toNat = written.bytes.take k.toNat := by
  refine ⟨aesCbcEncrypt_eq_of_padded cipher key iv text textLen buffer oldLen hmaxText htext
    hbuffer, ?_⟩
  intro k
  constructor
  · exact aesCbcDecrypt_accepts_iff_padded cipher key iv raw hmax hcipher hroom hvalid hraw
  · intro written hrun
    exact removePkcs7Padding_of_aesCbcDecrypt cipher key iv raw hmax hcipher hroom hvalid
      (hraw (whole_of_aesCbcDecrypt cipher key iv hmax hcipher hroom hrun)) hrun

/-- On the sample ciphertext both ways end with 16 bytes of text. -/
theorem sample_padding_agrees :
    PaddedFrom (Buffer.initialised 32 (sampleBlock.bytes ++ List.replicate 16 0x10)) 16 32 ∧
      removePkcs7Padding
        (Buffer.initialised 32 (sampleBlock.bytes ++ List.replicate 16 0x10)) 32 = .ok 16 := by
  have hraw : (Buffer.initialised 32
      (sampleBlock.bytes ++ List.replicate 16 0x10)).bytes.take (32 : UInt64).toNat =
        decryptWhole (aes256Cbc twoBlockCipher (Buffer.zero 32)) (Buffer.zero 16)
          (sampleCiphertext.take (32 : UInt64).toNat) := by
    decide +kernel
  have hrun : aesCbcDecrypt twoBlockCipher .success (Buffer.zero 32) (Buffer.zero 16)
      sampleCiphertext 32 (Buffer.zero 32) 0 =
        .ok (0, Buffer.initialised 32 sampleBlock.bytes, 16) := by rfl
  have hagree := (manual_padding_agrees twoBlockCipher (Buffer.zero 32) (Buffer.zero 16)
    .success (Buffer.zero 32) 0 (Buffer.zero 32) 3 (Buffer.zero 32) 0 _ (by decide) (by decide)
    (by decide) (by decide) (by decide) (by decide) (by decide) fun _ => hraw).2 16
  exact ⟨(hagree.1.mp ⟨_, hrun⟩).2.2, (hagree.2 _ hrun).1⟩

end Agreement

end AutomotiveSecurity.AesCbc
