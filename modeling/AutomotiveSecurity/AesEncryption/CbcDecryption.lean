import AutomotiveSecurity.Foundations.PaddedBlocks
import AutomotiveSecurity.OpenSSL.PaddedDecryption
import AutomotiveSecurity.AesEncryption.AesCbc

/-!
# What {lit}`aes_cbc_decrypt` accepts

{lit}`aes_cbc_decrypt` is made for the output of {lit}`aes_cbc_encrypt`, but it is given
whatever arrives.  It accepts exactly what {lit}`aes_cbc_encrypt` could have made under its key
and IV, which is no protection: changed ciphertexts are among it, and its refusals tell what a
block decrypts to.

Main results:

- Theorem {lit}`aesCbcDecrypt_inverts_encrypt`: the ciphertexts that are accepted, and what is
  left behind for the others.
- Theorem {lit}`flipped_bits_reach_plaintext`: bits flipped in front of the last two blocks are
  flipped in the text.
- Theorem {lit}`return_codes_tell_block`: the return values alone determine a block.

Current gaps:

- Nothing is said about where the key and the IV come from.
-/

namespace AutomotiveSecurity.AesCbc

open HostLength Memory OpenSSL

variable {n : Nat}

/-! ## Refusals -/

section Body

variable {update : Bool → CipherCtx AesBlock → List UInt8 → Int32 →
    Except Fault (Option (CipherCtx AesBlock × List UInt8))}
  {final : Bool → CipherCtx AesBlock → Option (List UInt8)}
  {cipher : BlockCipher (Buffer 32) AesBlock} {calls : CipherCalls} {key : Buffer 32}
  {iv : Buffer 16} {input : List UInt8} {inputLen : UInt64}

/-- Before the text is processed every failure leaves everything as it was. -/
theorem cbcCrypt_of_update_none (output : Buffer n) (outputLen : UInt64)
    (hnone : calls.ctxNew = false ∨ calls.init = false ∨
      update calls.update (keyedCtx (aes256Cbc cipher key) iv true) input
        (sizeToInt inputLen) = .ok none) :
    cbcCrypt update final cipher calls key iv input inputLen output outputLen =
      .ok (-1, output, outputLen) := by
  have hstart : ({ keyed := some (aes256Cbc cipher key, iv), pending := [], padding := true } :
      CipherCtx AesBlock) = keyedCtx (aes256Cbc cipher key) iv true := rfl
  rw [cbcCrypt]
  cases hnew : calls.ctxNew with
  | false => rfl
  | true =>
      cases hinit : calls.init with
      | false => rfl
      | true =>
          have hupdate := (hnone.resolve_left (by simp [hnew])).resolve_left (by simp [hinit])
          simp only [cipherCtxNew, cipherInit, if_true, hstart, hupdate, bind, Except.bind]
          rfl

/-- So does a pattern of calls under which the text is never processed. -/
theorem cbcCrypt_of_not_started (output : Buffer n) (outputLen : UInt64) {starts : Bool}
    (hnot : ¬(calls.ctxNew = true ∧ calls.init = true ∧ starts = true))
    (hrefused : starts = false → update calls.update (keyedCtx (aes256Cbc cipher key) iv true)
      input (sizeToInt inputLen) = .ok none) :
    cbcCrypt update final cipher calls key iv input inputLen output outputLen =
      .ok (-1, output, outputLen) := by
  apply cbcCrypt_of_update_none
  cases hnew : calls.ctxNew with
  | false => exact Or.inl rfl
  | true =>
      cases hinit : calls.init with
      | false => exact Or.inr (Or.inl rfl)
      | true =>
          refine Or.inr (Or.inr (hrefused ?_))
          exact Bool.eq_false_iff.mpr fun hstarts => hnot ⟨hnew, hinit, hstarts⟩

/-- When the last call refuses, the front has been written already. -/
theorem cbcCrypt_of_final_none (output : Buffer n) (outputLen : UInt64)
    {ctx : CipherCtx AesBlock} {out : List UInt8}
    (hnew : calls.ctxNew = true) (hinit : calls.init = true)
    (hupdate : update calls.update (keyedCtx (aes256Cbc cipher key) iv true) input
      (sizeToInt inputLen) = .ok (some (ctx, out)))
    (hfinal : final calls.final ctx = none) (hroom : 0 + out.length ≤ n) :
    cbcCrypt update final cipher calls key iv input inputLen output outputLen =
      .ok (-1, output.overwrite 0 out hroom, outputLen) := by
  have hstart : ({ keyed := some (aes256Cbc cipher key, iv), pending := [], padding := true } :
      CipherCtx AesBlock) = keyedCtx (aes256Cbc cipher key) iv true := rfl
  simp only [cbcCrypt, hnew, hinit, cipherCtxNew, cipherInit, if_true, hstart, hupdate, bind,
    Except.bind, store_of_le output hroom, hfinal]
  rfl

end Body

/-! ## The accepted ciphertexts -/

section Accepted

variable (cipher : BlockCipher (Buffer 32) AesBlock) (calls : CipherCalls) (key : Buffer 32)
  (iv : Buffer 16) (ciphertext : List UInt8) (ciphertextLen : UInt64)

/-- The ciphertext, as far as the converted length reaches, holds the text encrypted under the
key and the IV, and no call fails. -/
def Opens (text : List UInt8) : Prop :=
  Accepted calls ∧ ¬sizeToInt ciphertextLen < 0 ∧
    ciphertext.take (low32 ciphertextLen) =
      encryptWhole (aes256Cbc cipher key) iv (Pkcs7.pad 16 text)

variable {cipher calls key iv ciphertext ciphertextLen}

/-- Such a text is shorter than the ciphertext, and an {lit}`int` holds both lengths. -/
theorem Opens.length_lt {text : List UInt8}
    (hopens : Opens cipher calls key iv ciphertext ciphertextLen text)
    (hcipher : ciphertextLen.toNat ≤ ciphertext.length) :
    text.length < low32 ciphertextLen ∧ low32 ciphertextLen < 2 ^ 31 := by
  rcases hopens with ⟨_, hnonneg, hdata⟩
  have hlen := congrArg List.length hdata
  rw [List.length_take_of_le ((low32_le _).trans hcipher), length_encryptWhole,
    length_pad_div] at hlen
  exact ⟨by omega, sizeToInt_nonneg_iff.mp hnonneg⟩

variable (plaintext : Buffer n) (plaintextLen : UInt64)

/-- An encrypted text is given back with its length. -/
theorem aesCbcDecrypt_of_opens {text : List UInt8}
    (hopens : Opens cipher calls key iv ciphertext ciphertextLen text)
    (hcipher : ciphertextLen.toNat ≤ ciphertext.length) (hroom : ciphertextLen.toNat ≤ n) :
    ∃ written : Buffer n,
      aesCbcDecrypt cipher calls key iv ciphertext ciphertextLen plaintext plaintextLen =
        .ok (0, written, intToSize (Int32.ofNat text.length)) ∧
      written.bytes = text ++ plaintext.bytes.drop text.length := by
  rcases hopens.length_lt hcipher with ⟨hshort, hlow⟩
  have hle : low32 ciphertextLen ≤ ciphertextLen.toNat := low32_le _
  rcases hopens with ⟨⟨hnew, hinit, htext, hlast⟩, hnonneg, hdata⟩
  have hupdate := decryptUpdate_keyed (aes256Cbc cipher key) iv calls.update
    (toNatClampNeg_le hcipher)
  rw [if_pos (by simp [htext, hnonneg]), toNatClampNeg_sizeToInt hnonneg] at hupdate
  rcases (decryptFinal_heldBack (aes256Cbc cipher key) iv
    (ciphertext.take (low32 ciphertextLen)) text).mpr hdata with ⟨last, hfinal, hjoin⟩
  rw [← hlast] at hfinal
  have htotal := congrArg List.length hjoin
  rw [List.length_append] at htotal
  rcases cbcCrypt_of_calls calls plaintext plaintextLen hnew hinit hupdate hfinal (by omega)
      (by rw [hjoin]; omega) with
    ⟨written, hrun, hwritten⟩
  refine ⟨written, ?_, ?_⟩
  · rw [aesCbcDecrypt, hrun, htotal]
  · rw [hwritten, hjoin]

/-- Everything else is refused.  If no call has failed on its own, all blocks but the last
have been decrypted into the caller's buffer. -/
theorem aesCbcDecrypt_of_not_opens
    (hnone : ∀ text, ¬Opens cipher calls key iv ciphertext ciphertextLen text)
    (hcipher : ciphertextLen.toNat ≤ ciphertext.length) (hroom : ciphertextLen.toNat ≤ n) :
    ∃ written : Buffer n,
      aesCbcDecrypt cipher calls key iv ciphertext ciphertextLen plaintext plaintextLen =
        .ok (-1, written, plaintextLen) ∧
      (Accepted calls → ¬sizeToInt ciphertextLen < 0 →
        releasedFront (aes256Cbc cipher key) iv (ciphertext.take (low32 ciphertextLen)) <+:
          written.bytes) := by
  have hupdate := decryptUpdate_keyed (aes256Cbc cipher key) iv calls.update
    (toNatClampNeg_le hcipher)
  by_cases hstarted : calls.ctxNew = true ∧ calls.init = true ∧
      (calls.update && !decide (sizeToInt ciphertextLen < 0)) = true
  · rcases hstarted with ⟨hnew, hinit, hcall⟩
    rcases Bool.and_eq_true_iff.mp hcall with ⟨htext, hsign⟩
    have hnonneg : ¬sizeToInt ciphertextLen < 0 := by simpa using hsign
    have hle : low32 ciphertextLen ≤ ciphertextLen.toNat := low32_le _
    rw [if_pos hcall, toNatClampNeg_sizeToInt hnonneg] at hupdate
    have hfront : 0 + (releasedFront (aes256Cbc cipher key) iv
        (ciphertext.take (low32 ciphertextLen))).length ≤ n := by
      rw [length_releasedFront, List.length_take_of_le (hle.trans hcipher)]
      omega
    have hfinal : decryptFinal calls.final (heldBack (aes256Cbc cipher key) iv
        (ciphertext.take (low32 ciphertextLen))) = none := by
      cases hlast : calls.final with
      | false => rfl
      | true =>
          rw [Option.eq_none_iff_forall_not_mem]
          intro last hsome
          exact hnone _ ⟨⟨hnew, hinit, htext, hlast⟩, hnonneg,
            (decryptFinal_heldBack _ iv _ _).mp ⟨last, hsome, rfl⟩⟩
    refine ⟨_, cbcCrypt_of_final_none plaintext plaintextLen hnew hinit hupdate hfinal hfront, ?_⟩
    intro _ _
    exact ⟨_, rfl⟩
  · refine ⟨plaintext, cbcCrypt_of_not_started plaintext plaintextLen hstarted ?_, ?_⟩
    · intro hrefused
      rwa [hrefused, if_neg (by decide)] at hupdate
    · rintro ⟨hnew, hinit, htext, _⟩ hnonneg
      exact absurd ⟨hnew, hinit, by simp [htext, hnonneg]⟩ hstarted

/-- Whatever has been accepted has been encrypted under the key and the IV. -/
theorem opens_of_aesCbcDecrypt {written : Buffer n} {writtenLen : UInt64}
    (hcipher : ciphertextLen.toNat ≤ ciphertext.length) (hroom : ciphertextLen.toNat ≤ n)
    (hrun : aesCbcDecrypt cipher calls key iv ciphertext ciphertextLen plaintext plaintextLen =
      .ok (0, written, writtenLen)) :
    ∃ text, Opens cipher calls key iv ciphertext ciphertextLen text ∧
      writtenLen = intToSize (Int32.ofNat text.length) ∧
      written.bytes = text ++ plaintext.bytes.drop text.length := by
  by_cases hsome : ∃ text, Opens cipher calls key iv ciphertext ciphertextLen text
  · rcases hsome with ⟨text, hopens⟩
    rcases aesCbcDecrypt_of_opens plaintext plaintextLen hopens hcipher hroom with
      ⟨written', hrun', hbytes⟩
    rw [hrun'] at hrun
    rcases Prod.mk.inj (Prod.mk.inj (Except.ok.inj hrun)).2 with ⟨rfl, rfl⟩
    exact ⟨text, hopens, rfl, hbytes⟩
  · rcases aesCbcDecrypt_of_not_opens plaintext plaintextLen (not_exists.mp hsome) hcipher hroom
      with ⟨written', hrun', _⟩
    rw [hrun'] at hrun
    exact absurd hrun error_ne_zero

end Accepted

/-! ## Both directions -/

section Inverse

variable (cipher : BlockCipher (Buffer 32) AesBlock) (key : Buffer 32) (iv : Buffer 16)

/-- {lit}`aes_cbc_encrypt`, given the text and enough room, makes the ciphertext. -/
def EncryptsTo (text data : List UInt8) : Prop :=
  text.length < 2 ^ 31 - 16 ∧ ∃ written writtenLen,
    aesCbcEncrypt cipher .success key iv text (UInt64.ofNat text.length)
      (Buffer.zero (16 * (text.length / 16 + 1))) 0 = .ok (0, written, writtenLen) ∧
    written.bytes.take writtenLen.toNat = data

theorem encryptsTo_iff {text data : List UInt8} :
    EncryptsTo cipher key iv text data ↔ text.length < 2 ^ 31 - 16 ∧
      data = encryptWhole (aes256Cbc cipher key) iv (Pkcs7.pad 16 text) := by
  refine and_congr_right fun hshort => ?_
  have hlen : (UInt64.ofNat text.length).toNat = text.length := by
    rw [UInt64.toNat_ofNat']
    omega
  have hlow : low32 (UInt64.ofNat text.length) = text.length := by
    rw [low32_of_lt (by omega), hlen]
  rcases aesCbcEncrypt_of_accepted cipher key iv
      (Buffer.zero (16 * (text.length / 16 + 1))) 0
      (show Accepted .success from ⟨rfl, rfl, rfl, rfl⟩)
      (sizeToInt_nonneg_of_max (by omega)) hlen.le (by rw [hlen]) with ⟨written, hrun, hread⟩
  rw [hlow] at hrun hread
  rw [List.take_length] at hread
  have htotal : (intToSize (Int32.ofNat (16 * (text.length / 16 + 1)))).toNat =
      16 * (text.length / 16 + 1) := toNat_intToSize_ofNat (by omega)
  constructor
  · rintro ⟨written', writtenLen, hrun', hdata⟩
    rw [hrun] at hrun'
    rcases Prod.mk.inj (Prod.mk.inj (Except.ok.inj hrun')).2 with ⟨rfl, rfl⟩
    rw [← hdata, htotal, hread]
  · rintro rfl
    exact ⟨written, _, hrun, by rw [htotal, hread]⟩

variable {cipher key iv}

/-- What opens is what {lit}`aes_cbc_encrypt` makes. -/
theorem opens_iff {calls : CipherCalls} {ciphertext : List UInt8} {ciphertextLen : UInt64}
    (hcipher : ciphertextLen.toNat ≤ ciphertext.length) (text : List UInt8) :
    Opens cipher calls key iv ciphertext ciphertextLen text ↔
      Accepted calls ∧ ¬sizeToInt ciphertextLen < 0 ∧
        EncryptsTo cipher key iv text (ciphertext.take (low32 ciphertextLen)) := by
  constructor
  · intro hopens
    rcases hopens.length_lt hcipher with ⟨hshort, hlow⟩
    have hlen := congrArg List.length hopens.2.2
    rw [List.length_take_of_le ((low32_le _).trans hcipher), length_encryptWhole,
      length_pad_div] at hlen
    exact ⟨hopens.1, hopens.2.1,
      (encryptsTo_iff cipher key iv).mpr ⟨by omega, hopens.2.2⟩⟩
  · rintro ⟨hcalls, hnonneg, hmade⟩
    exact ⟨hcalls, hnonneg, ((encryptsTo_iff cipher key iv).mp hmade).2⟩

/-- For every key, IV and ciphertext of at most {lit}`INT_MAX` bytes, and every pattern of
failing calls: {lit}`aes_cbc_decrypt` returns 0 exactly if no call fails on its own and the
ciphertext is what {lit}`aes_cbc_encrypt` makes of some text under the same key and IV, and then
gives that text and its length.  Otherwise it returns -1 and leaves the length as it was; unless
a call has failed on its own, all blocks but the last stand decrypted in the caller's buffer.
Of a longer ciphertext all this only holds for the bytes that the low 32 bits of its length
reach, the others are never looked at. -/
theorem aesCbcDecrypt_inverts_encrypt (calls : CipherCalls) {ciphertext : List UInt8}
    {ciphertextLen : UInt64} (plaintext : Buffer n) (plaintextLen : UInt64)
    (hcipher : ciphertextLen.toNat ≤ ciphertext.length) (hroom : ciphertextLen.toNat ≤ n) :
    (∀ text, Accepted calls → ¬sizeToInt ciphertextLen < 0 →
      EncryptsTo cipher key iv text (ciphertext.take (low32 ciphertextLen)) →
      ∃ written : Buffer n,
        aesCbcDecrypt cipher calls key iv ciphertext ciphertextLen plaintext plaintextLen =
          .ok (0, written, intToSize (Int32.ofNat text.length)) ∧
        written.bytes = text ++ plaintext.bytes.drop text.length) ∧
    ((¬(Accepted calls ∧ ¬sizeToInt ciphertextLen < 0 ∧
        ∃ text, EncryptsTo cipher key iv text (ciphertext.take (low32 ciphertextLen)))) →
      ∃ written : Buffer n,
        aesCbcDecrypt cipher calls key iv ciphertext ciphertextLen plaintext plaintextLen =
          .ok (-1, written, plaintextLen) ∧
        (Accepted calls → ¬sizeToInt ciphertextLen < 0 →
          releasedFront (aes256Cbc cipher key) iv (ciphertext.take (low32 ciphertextLen)) <+:
            written.bytes)) := by
  constructor
  · intro text hcalls hnonneg hmade
    exact aesCbcDecrypt_of_opens plaintext plaintextLen
      ((opens_iff hcipher text).mpr ⟨hcalls, hnonneg, hmade⟩) hcipher hroom
  · intro hnone
    refine aesCbcDecrypt_of_not_opens plaintext plaintextLen ?_ hcipher hroom
    intro text hopens
    rcases (opens_iff hcipher text).mp hopens with ⟨hcalls, hnonneg, hmade⟩
    exact hnone ⟨hcalls, hnonneg, text, hmade⟩

end Inverse

/-- One block of text. -/
def sampleBlock : AesBlock :=
  ⟨[0x41, 0x45, 0x53, 0x2D, 0x32, 0x35, 0x36, 0x2D,
    0x43, 0x42, 0x43, 0x20, 0x54, 0x45, 0x53, 0x54], rfl⟩

/-- The sample block encrypted with AES-256 under a zero key. -/
def sampleBlockEncrypted : AesBlock :=
  ⟨[0x57, 0x7F, 0x1C, 0x4B, 0x01, 0xB8, 0x35, 0x6E,
    0x3F, 0x10, 0x91, 0x6D, 0x48, 0x67, 0x40, 0x3D], rfl⟩

/-- A block of padding, combined with the encrypted sample block. -/
def samplePadding : AesBlock :=
  ⟨[0x47, 0x6F, 0x0C, 0x5B, 0x11, 0xA8, 0x25, 0x7E,
    0x2F, 0x00, 0x81, 0x7D, 0x58, 0x77, 0x50, 0x2D], rfl⟩

/-- The combined padding encrypted with AES-256 under a zero key. -/
def samplePaddingEncrypted : AesBlock :=
  ⟨[0xFC, 0x4E, 0x77, 0x6B, 0x62, 0x66, 0xAE, 0xDD,
    0x98, 0x32, 0x06, 0x90, 0x19, 0x3E, 0x4C, 0x5A], rfl⟩

/-- A cipher that is AES-256 under a zero key on the two sample blocks. -/
def twoBlockCipher : BlockCipher (Buffer 32) AesBlock where
  encrypt _ := Equiv.swap sampleBlock sampleBlockEncrypted *
    Equiv.swap samplePadding samplePaddingEncrypted
  decrypt _ := (Equiv.swap sampleBlock sampleBlockEncrypted *
    Equiv.swap samplePadding samplePaddingEncrypted).symm
  decrypt_encrypt _ b := Equiv.symm_apply_apply _ b

/-- The ciphertext of the sample block under a zero key and IV. -/
def sampleCiphertext : List UInt8 :=
  sampleBlockEncrypted.bytes ++ samplePaddingEncrypted.bytes

/-- The sample ciphertext is decrypted. -/
theorem sample_ciphertext_opened :
    ∃ written : Buffer 32,
      aesCbcDecrypt twoBlockCipher .success (Buffer.zero 32) (Buffer.zero 16) sampleCiphertext 32
        (Buffer.zero 32) 0 = .ok (0, written, 16) ∧
      written.bytes = sampleBlock.bytes ++ (Buffer.zero 16).bytes := by
  have hmade : EncryptsTo twoBlockCipher (Buffer.zero 32) (Buffer.zero 16) sampleBlock.bytes
      sampleCiphertext :=
    (encryptsTo_iff _ _ _).mpr ⟨by decide, by decide +kernel⟩
  exact (aesCbcDecrypt_inverts_encrypt .success (Buffer.zero 32) 0 (by decide) (by decide)).1
    sampleBlock.bytes ⟨rfl, rfl, rfl, rfl⟩ (by decide) hmade

/-! ## Flipped bits -/

/-- The bytes of an object with some bits of one block flipped. -/
def flipBlock (bs : List UInt8) (i : Nat) (delta : AesBlock) : List UInt8 :=
  setBlock bs i (xorBlock (Buffer.initialised 16 (bs.drop (16 * i))) delta)

section Flips

variable {cipher : BlockCipher (Buffer 32) AesBlock} {calls : CipherCalls} {key : Buffer 32}
  {iv : Buffer 16} {ciphertext : List UInt8} {ciphertextLen : UInt64}

/-- With the same last block the padding is the same, whatever stands before. -/
theorem unpad_exchange {front front' : List AesBlock} {last : AesBlock} {text : List UInt8}
    (hunpad : Pkcs7.unpad 16 (blockBytes (front ++ [last])) = some text) :
    ∃ tail, text = blockBytes front ++ tail ∧
      Pkcs7.unpad 16 (blockBytes (front' ++ [last])) = some (blockBytes front' ++ tail) := by
  have hblock : 16 ≤ (blockBytes [last]).length := by
    rw [length_blockBytes]
    rfl
  rw [blockBytes_append, Pkcs7.unpad_append hblock, Option.map_eq_some_iff] at hunpad
  rcases hunpad with ⟨tail, htail, rfl⟩
  refine ⟨tail, rfl, ?_⟩
  rw [blockBytes_append, Pkcs7.unpad_append hblock, htail]
  rfl

/-- What the complete blocks of a ciphertext decrypt to. -/
def decryptedBlocks (cipher : BlockCipher (Buffer 32) AesBlock) (key : Buffer 32)
    (iv : Buffer 16) (ciphertext : List UInt8) (ciphertextLen : UInt64) : List AesBlock :=
  ((aes256Cbc cipher key).decryptBlocks iv
    (blocksOf 16 (low32 ciphertextLen / 16) ciphertext)).1

theorem length_decryptedBlocks :
    (decryptedBlocks cipher key iv ciphertext ciphertextLen).length =
      low32 ciphertextLen / 16 := by
  rw [decryptedBlocks, BlockMode.decryptBlocks, length_runBlocks, length_blocksOf]

theorem decryptWhole_eq_decryptedBlocks (hcipher : ciphertextLen.toNat ≤ ciphertext.length) :
    decryptWhole (aes256Cbc cipher key) iv (ciphertext.take (low32 ciphertextLen)) =
      blockBytes (decryptedBlocks cipher key iv ciphertext ciphertextLen) := by
  have hle : low32 ciphertextLen ≤ ciphertext.length := (low32_le _).trans hcipher
  rw [decryptWhole, List.length_take_of_le hle, blocksOf_take (Nat.mul_div_le _ _) hle]
  rfl

/-- Two ciphertexts of one length whose decrypted blocks differ only in front of the last one
are both accepted or both refused, and what is accepted holds these blocks. -/
theorem aesCbcDecrypt_exchanged {iv' : Buffer 16} {ciphertext' : List UInt8}
    {plaintext written : Buffer n} {plaintextLen writtenLen : UInt64}
    {front front' : List AesBlock} {last : AesBlock}
    (hcipher : ciphertextLen.toNat ≤ ciphertext.length)
    (hcipher' : ciphertextLen.toNat ≤ ciphertext'.length) (hroom : ciphertextLen.toNat ≤ n)
    (hblocks : decryptedBlocks cipher key iv ciphertext ciphertextLen = front ++ [last])
    (hblocks' : decryptedBlocks cipher key iv' ciphertext' ciphertextLen = front' ++ [last])
    (hrun : aesCbcDecrypt cipher calls key iv ciphertext ciphertextLen plaintext plaintextLen =
      .ok (0, written, writtenLen)) :
    ∃ (written' : Buffer n) (rest : List UInt8),
      aesCbcDecrypt cipher calls key iv' ciphertext' ciphertextLen plaintext plaintextLen =
        .ok (0, written', writtenLen) ∧
      written.bytes = blockBytes front ++ rest ∧ written'.bytes = blockBytes front' ++ rest := by
  have hle : low32 ciphertextLen ≤ ciphertextLen.toNat := low32_le _
  rcases opens_of_aesCbcDecrypt plaintext plaintextLen hcipher hroom hrun with
    ⟨text, ⟨hcalls, hnonneg, hdata⟩, rfl, hbytes⟩
  rcases (unpad_decryptWhole_iff _ iv).mpr hdata with ⟨hwhole, hunpad⟩
  rw [decryptWhole_eq_decryptedBlocks hcipher, hblocks] at hunpad
  rcases unpad_exchange hunpad with ⟨tail, rfl, hunpad'⟩
  have hopens' : Opens cipher calls key iv' ciphertext' ciphertextLen
      (blockBytes front' ++ tail) := by
    refine ⟨hcalls, hnonneg, (unpad_decryptWhole_iff _ iv').mp ⟨?_, ?_⟩⟩
    · rw [List.length_take_of_le (hle.trans hcipher)] at hwhole
      rwa [List.length_take_of_le (hle.trans hcipher')]
    · rw [decryptWhole_eq_decryptedBlocks hcipher', hblocks', hunpad']
  have hfront : front'.length = front.length := by
    have hlen := @length_decryptedBlocks cipher key iv ciphertext ciphertextLen
    rw [hblocks, ← length_decryptedBlocks, hblocks'] at hlen
    simpa using hlen.symm
  have hlength : (blockBytes front' ++ tail).length = (blockBytes front ++ tail).length := by
    rw [List.length_append, List.length_append, length_blockBytes, length_blockBytes, hfront]
  rcases aesCbcDecrypt_of_opens plaintext plaintextLen hopens' hcipher' hroom with
    ⟨written', hrun', hbytes'⟩
  refine ⟨written', tail ++ plaintext.bytes.drop (blockBytes front ++ tail).length, ?_, ?_, ?_⟩
  · rw [hrun', hlength]
  · rw [hbytes, List.append_assoc]
  · rw [hbytes', hlength, List.append_assoc]

/-- Two ciphertexts of one length whose last decrypted blocks agree are both accepted or both
refused; the blocks in front are those that the two ciphertexts decrypt to, and the bytes
behind them are the same. -/
theorem aesCbcDecrypt_of_same_last {iv' : Buffer 16} {ciphertext' : List UInt8}
    {plaintext written : Buffer n} {plaintextLen writtenLen : UInt64}
    (hcipher : ciphertextLen.toNat ≤ ciphertext.length)
    (hcipher' : ciphertextLen.toNat ≤ ciphertext'.length) (hroom : ciphertextLen.toNat ≤ n)
    (hpos : 0 < low32 ciphertextLen / 16)
    (hlast : (decryptedBlocks cipher key iv' ciphertext' ciphertextLen)[
        low32 ciphertextLen / 16 - 1]? =
      (decryptedBlocks cipher key iv ciphertext ciphertextLen)[low32 ciphertextLen / 16 - 1]?)
    (hrun : aesCbcDecrypt cipher calls key iv ciphertext ciphertextLen plaintext plaintextLen =
      .ok (0, written, writtenLen)) :
    ∃ written' : Buffer n,
      aesCbcDecrypt cipher calls key iv' ciphertext' ciphertextLen plaintext plaintextLen =
        .ok (0, written', writtenLen) ∧
      (∀ j, (decryptedBlocks cipher key iv' ciphertext' ciphertextLen)[j]? =
          (decryptedBlocks cipher key iv ciphertext ciphertextLen)[j]? →
        blockAt 16 written'.bytes j = blockAt 16 written.bytes j) ∧
      ∀ j < low32 ciphertextLen / 16 - 1, ∀ d d',
        (decryptedBlocks cipher key iv ciphertext ciphertextLen)[j]? = some d →
        (decryptedBlocks cipher key iv' ciphertext' ciphertextLen)[j]? = some d' →
        blockAt 16 written.bytes j = d.bytes ∧ blockAt 16 written'.bytes j = d'.bytes := by
  have hlen := @length_decryptedBlocks cipher key iv ciphertext ciphertextLen
  have hlen' := @length_decryptedBlocks cipher key iv' ciphertext' ciphertextLen
  generalize hds : decryptedBlocks cipher key iv ciphertext ciphertextLen = ds at hlast hlen ⊢
  generalize hds' : decryptedBlocks cipher key iv' ciphertext' ciphertextLen = ds'
    at hlast hlen' ⊢
  rcases List.eq_nil_or_concat' ds with rfl | ⟨front, last, rfl⟩
  · simp only [List.length_nil] at hlen
    omega
  rcases List.eq_nil_or_concat' ds' with rfl | ⟨front', last', rfl⟩
  · simp only [List.length_nil] at hlen'
    omega
  rw [List.length_append, List.length_singleton] at hlen hlen'
  have hfront : front'.length = front.length := by omega
  have hsame : last' = last := by
    rw [← hlen, Nat.add_sub_cancel, List.getElem?_concat_length, ← hfront,
      List.getElem?_concat_length] at hlast
    exact Option.some.inj hlast
  subst hsame
  rcases aesCbcDecrypt_exchanged hcipher hcipher' hroom hds hds' hrun with
    ⟨written', rest, hrun', hbytes, hbytes'⟩
  refine ⟨written', hrun', ?_, ?_⟩
  · intro j hblock
    rw [hbytes, hbytes']
    apply blockAt_congr rest hfront
    by_cases hj : j < front.length
    · rwa [List.getElem?_append_left hj, List.getElem?_append_left (by omega)] at hblock
    · rw [List.getElem?_eq_none (by omega), List.getElem?_eq_none (by omega)]
  · intro j hj d d' hd hd'
    rw [List.getElem?_append_left (by omega)] at hd hd'
    rw [hbytes, hbytes']
    exact ⟨blockAt_blockBytes front rest hd, blockAt_blockBytes front' rest hd'⟩

/-- The blocks of a ciphertext with flipped bits. -/
theorem blocksOf_flipBlock (delta : AesBlock) {i : Nat} (hi : i < low32 ciphertextLen / 16)
    (hcipher : ciphertextLen.toNat ≤ ciphertext.length) :
    ∃ c, (blocksOf 16 (low32 ciphertextLen / 16) ciphertext)[i]? = some c ∧
      blocksOf 16 (low32 ciphertextLen / 16) (flipBlock ciphertext i delta) =
        (blocksOf 16 (low32 ciphertextLen / 16) ciphertext).set i (xorBlock c delta) := by
  have hle : low32 ciphertextLen ≤ ciphertext.length := (low32_le _).trans hcipher
  refine ⟨_, getElem?_blocksOf_initialised ciphertext hi, ?_⟩
  exact blocksOf_setBlock _ (by omega) hi

/-- For every key, IV and ciphertext of at most {lit}`INT_MAX` bytes that {lit}`aes_cbc_decrypt`
accepts: bits flipped in the IV, where there are at least two blocks, or in any ciphertext block
but the last two, go unnoticed.  The call still returns 0 with the same length, exactly these
bits are flipped in the text of the block behind, and apart from the block that was changed
itself all other text is as before.  In a single block flipped bits of the IV reach the padding,
and of a longer ciphertext the blocks are those in the low 32 bits of its length. -/
theorem flipped_bits_reach_plaintext {plaintext written : Buffer n}
    {plaintextLen writtenLen : UInt64} (delta : AesBlock)
    (hcipher : ciphertextLen.toNat ≤ ciphertext.length) (hroom : ciphertextLen.toNat ≤ n)
    (hrun : aesCbcDecrypt cipher calls key iv ciphertext ciphertextLen plaintext plaintextLen =
      .ok (0, written, writtenLen)) :
    (32 ≤ low32 ciphertextLen → ∃ written' : Buffer n,
      aesCbcDecrypt cipher calls key (xorBlock iv delta) ciphertext ciphertextLen plaintext
        plaintextLen = .ok (0, written', writtenLen) ∧
      blockAt 16 written'.bytes 0 =
        List.zipWith (· ^^^ ·) (blockAt 16 written.bytes 0) delta.bytes ∧
      ∀ j ≠ 0, blockAt 16 written'.bytes j = blockAt 16 written.bytes j) ∧
    ∀ i, 16 * (i + 3) ≤ low32 ciphertextLen → ∃ written' : Buffer n,
      aesCbcDecrypt cipher calls key iv (flipBlock ciphertext i delta) ciphertextLen plaintext
        plaintextLen = .ok (0, written', writtenLen) ∧
      blockAt 16 written'.bytes (i + 1) =
        List.zipWith (· ^^^ ·) (blockAt 16 written.bytes (i + 1)) delta.bytes ∧
      ∀ j, j ≠ i → j ≠ i + 1 → blockAt 16 written'.bytes j = blockAt 16 written.bytes j := by
  have hle : low32 ciphertextLen ≤ ciphertext.length := (low32_le _).trans hcipher
  have hlen := @length_decryptedBlocks cipher key iv ciphertext ciphertextLen
  constructor
  · intro hlong
    have hflip := cbc_decrypt_flip_iv cipher key iv delta
      (blocksOf 16 (low32 ciphertextLen / 16) ciphertext)
    have hlast : (decryptedBlocks cipher key (xorBlock iv delta) ciphertext ciphertextLen)[
          low32 ciphertextLen / 16 - 1]? =
        (decryptedBlocks cipher key iv ciphertext ciphertextLen)[
          low32 ciphertextLen / 16 - 1]? :=
      hflip.2 _ (by omega)
    rcases aesCbcDecrypt_of_same_last hcipher hcipher hroom (by omega) hlast hrun with
      ⟨written', hrun', hkept, hread⟩
    refine ⟨written', hrun', ?_, fun j hj => hkept j (hflip.2 j hj)⟩
    have hd := List.getElem?_eq_getElem
      (show 0 < (decryptedBlocks cipher key iv ciphertext ciphertextLen).length by omega)
    rcases hread 0 (by omega) _ _ hd (hflip.1.trans (congrArg (Option.map _) hd)) with
      ⟨hold, hnew⟩
    rw [hold, hnew]
    rfl
  · intro i hi
    rcases blocksOf_flipBlock delta (show i < low32 ciphertextLen / 16 by omega) hcipher with
      ⟨c, hc, hset⟩
    have hflip := cbc_decrypt_flip cipher key iv delta hc
    rw [← hset] at hflip
    have hcipher' : ciphertextLen.toNat ≤ (flipBlock ciphertext i delta).length := by
      rw [flipBlock, length_setBlock _ (by omega)]
      exact hcipher
    rcases aesCbcDecrypt_of_same_last hcipher hcipher' hroom (by omega)
        (hflip.2 _ (by omega) (by omega)) hrun with
      ⟨written', hrun', hkept, hread⟩
    refine ⟨written', hrun', ?_, fun j hj hj' => hkept j (hflip.2 j hj hj')⟩
    have hd := List.getElem?_eq_getElem
      (show i + 1 < (decryptedBlocks cipher key iv ciphertext ciphertextLen).length by omega)
    rcases hread (i + 1) (by omega) _ _ hd (hflip.1.trans (congrArg (Option.map _) hd)) with
      ⟨hold, hnew⟩
    rw [hold, hnew]
    rfl

/-- A bit flipped in the IV changes the first letter of the sample block. -/
theorem sample_block_forged :
    ∃ written : Buffer 32,
      aesCbcDecrypt twoBlockCipher .success (Buffer.zero 32)
        (xorBlock (Buffer.zero 16) (Buffer.initialised 16 [0x01])) sampleCiphertext 32
        (Buffer.zero 32) 0 = .ok (0, written, 16) ∧
      blockAt 16 written.bytes 0 = 0x40 :: sampleBlock.bytes.tail := by
  have hrun : aesCbcDecrypt twoBlockCipher .success (Buffer.zero 32) (Buffer.zero 16)
      sampleCiphertext 32 (Buffer.zero 32) 0 =
        .ok (0, Buffer.initialised 32 sampleBlock.bytes, 16) := by rfl
  rcases (flipped_bits_reach_plaintext (Buffer.initialised 16 [0x01]) (by decide) (by decide)
    hrun).1 (by decide) with ⟨written, hforged, hflipped, _⟩
  refine ⟨written, hforged, ?_⟩
  rw [hflipped]
  decide +kernel

end Flips

/-! ## Refusals seen from outside -/

section Oracle

variable (cipher : BlockCipher (Buffer 32) AesBlock)

/-- {lit}`aes_cbc_decrypt` returns 0 for a single block behind an IV. -/
def AcceptsBlock (key : Buffer 32) (iv : Buffer 16) (c : AesBlock) : Prop :=
  ∃ (written : Buffer 16) (writtenLen : UInt64),
    aesCbcDecrypt cipher .success key iv c.bytes 16 (Buffer.zero 16) 0 =
      .ok (0, written, writtenLen)

/-- A block is accepted exactly if it decrypts, combined with the IV, to padding. -/
theorem acceptsBlock_iff (key : Buffer 32) (iv : Buffer 16) (c : AesBlock) :
    AcceptsBlock cipher key iv c ↔ Padded (xorBlock (cipher.decrypt key c) iv) := by
  have hlen : (16 : UInt64).toNat ≤ c.bytes.length := by
    rw [c.size_eq]
    decide
  have hlow : low32 16 = 16 := rfl
  have htake : c.bytes.take (low32 16) = c.bytes := by
    rw [hlow, List.take_of_length_le c.size_eq.le]
  have hwhole : decryptWhole (aes256Cbc cipher key) iv c.bytes =
      (xorBlock (cipher.decrypt key c) iv).bytes := by
    have hblocks : blocksOf 16 1 c.bytes = [c] := by
      have hread := blocksOf_blockBytes [c] []
      rwa [List.append_nil, blockBytes, List.flatMap_singleton] at hread
    rw [decryptWhole, c.size_eq, hblocks]
    exact List.flatMap_singleton _ _
  constructor
  · rintro ⟨written, writtenLen, hrun⟩
    rcases opens_of_aesCbcDecrypt _ _ hlen (by decide) hrun with ⟨text, ⟨_, _, hdata⟩, _⟩
    rw [htake] at hdata
    rcases (unpad_decryptWhole_iff _ iv).mpr hdata with ⟨_, hunpad⟩
    rw [hwhole] at hunpad
    exact ⟨text, hunpad⟩
  · rintro ⟨text, hunpad⟩
    have hopens : Opens cipher .success key iv c.bytes 16 text := by
      refine ⟨⟨rfl, rfl, rfl, rfl⟩, by decide, ?_⟩
      rw [htake]
      exact (unpad_decryptWhole_iff _ iv).mp ⟨by rw [c.size_eq], by rw [hwhole, hunpad]⟩
    rcases aesCbcDecrypt_of_opens (Buffer.zero 16) 0 hopens hlen (by decide) with
      ⟨written, hrun, _⟩
    exact ⟨written, _, hrun⟩

/-- The return values of {lit}`aes_cbc_decrypt` alone, for one block behind all possible IVs,
determine what the block decrypts to: two blocks, under whatever keys, get the same return
values exactly if they are decrypted to the same block. -/
theorem return_codes_tell_block (key key' : Buffer 32) (c c' : AesBlock) :
    (∀ iv, AcceptsBlock cipher key iv c ↔ AcceptsBlock cipher key' iv c') ↔
      cipher.decrypt key c = cipher.decrypt key' c' := by
  have hpadded : (∀ iv, AcceptsBlock cipher key iv c ↔ AcceptsBlock cipher key' iv c') ↔
      ∀ iv, Padded (xorBlock (cipher.decrypt key c) iv) ↔
        Padded (xorBlock (cipher.decrypt key' c') iv) := by
    refine forall_congr' fun iv => ?_
    rw [acceptsBlock_iff, acceptsBlock_iff]
  rw [hpadded]
  exact padded_xorBlock_iff (by decide) (by decide)

end Oracle

end AutomotiveSecurity.AesCbc
