import AutomotiveSecurity.Foundations.HostLength
import AutomotiveSecurity.OpenSSL.BlockCipher

/-!
# The CBC functions of {lit}`aes_cbc.c`

{lit}`aes_cbc_encrypt` and {lit}`aes_cbc_decrypt` make the same calls with the direction
exchanged.  Both hand their {lit}`size_t` length over as an {lit}`int` and add the lengths of
the two outputs as {lit}`int`.

Main results:

- Theorem {lit}`aesCbcEncrypt_of_accepted`: a successful encryption covers as many bytes as
  the converted length says.
- Theorem {lit}`aesCbcDecrypt_of_padded`: decryption gives these bytes back.

Current gaps:

- A sum beyond {lit}`INT_MAX` is undefined in C; here it wraps around.
-/

namespace AutomotiveSecurity.AesCbc

open HostLength Memory OpenSSL

variable {n : Nat}

/-! ## The two functions -/

/-- The mode that {lit}`EVP_aes_256_cbc()` selects. -/
def aes256Cbc (cipher : BlockCipher (Buffer 32) AesBlock) (key : Buffer 32) :
    BlockMode AesBlock AesBlock :=
  aesCbc cipher key

/-- The common body of the two functions: the return value, the output buffer and the
output length. -/
def cbcCrypt
    (update : Bool → CipherCtx AesBlock → List UInt8 → Int32 →
      Except Fault (Option (CipherCtx AesBlock × List UInt8)))
    (final : Bool → CipherCtx AesBlock → Option (List UInt8))
    (cipher : BlockCipher (Buffer 32) AesBlock) (calls : CipherCalls) (key : Buffer 32)
    (iv : Buffer 16) (input : List UInt8) (inputLen : UInt64) (output : Buffer n)
    (outputLen : UInt64) : Except Fault (Int32 × Buffer n × UInt64) := do
  let some ctx := cipherCtxNew calls.ctxNew | return (-1, output, outputLen)
  let some ctx := cipherInit calls.init ctx (aes256Cbc cipher key) iv
    | return (-1, output, outputLen)
  let some (ctx, out) ← update calls.update ctx input (sizeToInt inputLen)
    | return (-1, output, outputLen)
  let output ← output.store 0 out
  let len := Int32.ofNat out.length
  let totalLen := len
  let some out := final calls.final ctx | return (-1, output, outputLen)
  let output ← output.store len.toNatClampNeg out
  let totalLen := totalLen + Int32.ofNat out.length
  return (0, output, intToSize totalLen)

/-- {lit}`aes_cbc_encrypt`: the return value, {lit}`ciphertext` and {lit}`*ciphertext_len`. -/
def aesCbcEncrypt (cipher : BlockCipher (Buffer 32) AesBlock) (calls : CipherCalls)
    (key : Buffer 32) (iv : Buffer 16) (plaintext : List UInt8) (plaintextLen : UInt64)
    (ciphertext : Buffer n) (ciphertextLen : UInt64) :
    Except Fault (Int32 × Buffer n × UInt64) :=
  cbcCrypt encryptUpdate encryptFinal cipher calls key iv plaintext plaintextLen ciphertext
    ciphertextLen

/-- {lit}`aes_cbc_decrypt`: the return value, {lit}`plaintext` and {lit}`*plaintext_len`. -/
def aesCbcDecrypt (cipher : BlockCipher (Buffer 32) AesBlock) (calls : CipherCalls)
    (key : Buffer 32) (iv : Buffer 16) (ciphertext : List UInt8) (ciphertextLen : UInt64)
    (plaintext : Buffer n) (plaintextLen : UInt64) :
    Except Fault (Int32 × Buffer n × UInt64) :=
  cbcCrypt decryptUpdate decryptFinal cipher calls key iv ciphertext ciphertextLen plaintext
    plaintextLen

/-! ## The common body -/

section Body

variable {update : Bool → CipherCtx AesBlock → List UInt8 → Int32 →
    Except Fault (Option (CipherCtx AesBlock × List UInt8))}
  {final : Bool → CipherCtx AesBlock → Option (List UInt8)}
  {cipher : BlockCipher (Buffer 32) AesBlock} {key : Buffer 32}
  {iv : Buffer 16} {input : List UInt8} {inputLen : UInt64}

/-- The result is 0 only if all calls succeed. -/
theorem cbcCrypt_eq_zero {calls : CipherCalls} {output written : Buffer n}
    {outputLen writtenLen : UInt64}
    (hrun : cbcCrypt update final cipher calls key iv input inputLen output outputLen =
      .ok (0, written, writtenLen)) :
    calls.ctxNew = true ∧ calls.init = true ∧ ∃ ctx out last,
      update calls.update (keyedCtx (aes256Cbc cipher key) iv true) input
          (sizeToInt inputLen) = .ok (some (ctx, out)) ∧
        final calls.final ctx = some last := by
  rw [cbcCrypt] at hrun
  cases hnew : calls.ctxNew with
  | false =>
      simp only [hnew, cipherCtxNew] at hrun
      exact absurd hrun error_ne_zero
  | true =>
    cases hinit : calls.init with
    | false =>
        simp only [hnew, hinit, cipherCtxNew, cipherInit, if_true] at hrun
        exact absurd hrun error_ne_zero
    | true =>
      simp only [hnew, hinit, cipherCtxNew, cipherInit, if_true] at hrun
      rcases bind_eq_ok.mp hrun with ⟨result, hupdate, hrest⟩
      cases result with
      | none => exact absurd hrest error_ne_zero
      | some pair =>
        rcases bind_eq_ok.mp hrest with ⟨_, _, hafter⟩
        cases hfinal : final calls.final pair.1 with
        | none =>
            simp only [hfinal] at hafter
            exact absurd hafter error_ne_zero
        | some last => exact ⟨rfl, rfl, pair.1, pair.2, last, hupdate, hfinal⟩

/-- With both calls for the text successful, the two outputs are stored one behind the
other and the sum of their lengths is reported. -/
theorem cbcCrypt_of_calls (calls : CipherCalls) (output : Buffer n) (outputLen : UInt64)
    {ctx : CipherCtx AesBlock} {out last : List UInt8}
    (hnew : calls.ctxNew = true) (hinit : calls.init = true)
    (hupdate : update calls.update (keyedCtx (aes256Cbc cipher key) iv true) input
      (sizeToInt inputLen) = .ok (some (ctx, out)))
    (hfinal : final calls.final ctx = some last) (hout : out.length < 2 ^ 31)
    (hroom : (out ++ last).length ≤ n) :
    ∃ written : Buffer n,
      cbcCrypt update final cipher calls key iv input inputLen output outputLen =
        .ok (0, written, intToSize (Int32.ofNat (out.length + last.length))) ∧
      written.bytes = (out ++ last) ++ output.bytes.drop (out ++ last).length := by
  have htotal : (out ++ last).length = out.length + last.length := List.length_append
  have hfirst : 0 + out.length ≤ n := by omega
  have hsecond : 0 + out.length + last.length ≤ n := by omega
  have hboth : 0 + (out ++ last).length ≤ n := by omega
  have hoffset : (Int32.ofNat out.length).toNatClampNeg = 0 + out.length := by
    rw [Int32.toNatClampNeg_ofNat_of_lt hout, Nat.zero_add]
  refine ⟨output.overwrite 0 (out ++ last) hboth, ?_, ?_⟩
  · have hstart : ({ keyed := some (aes256Cbc cipher key, iv), pending := [], padding := true } :
        CipherCtx AesBlock) = keyedCtx (aes256Cbc cipher key) iv true := rfl
    simp only [cbcCrypt, hnew, hinit, cipherCtxNew, cipherInit, if_true, hstart, hupdate, bind,
      Except.bind, store_of_le output hfirst, hfinal, hoffset, store_of_le _ hsecond,
      output.overwrite_overwrite out last hfirst hsecond hboth, Int32.ofNat_add]
    rfl
  · simp only [Buffer.overwrite, List.take_zero, List.nil_append, Nat.zero_add]

end Body

/-! ## Both directions -/

section Directions

variable {m : Nat} (cipher : BlockCipher (Buffer 32) AesBlock) (key : Buffer 32)
  (iv : Buffer 16)

/-- No call of an encryption or decryption fails on its own. -/
def Accepted (calls : CipherCalls) : Prop :=
  calls.ctxNew = true ∧ calls.init = true ∧ calls.update = true ∧ calls.final = true

/-- A length that does not arrive negative stays inside its object. -/
theorem toNatClampNeg_le {input : List UInt8} {len : UInt64} (hlen : len.toNat ≤ input.length)
    (hnonneg : ¬sizeToInt len < 0) : (sizeToInt len).toNatClampNeg ≤ input.length := by
  rw [toNatClampNeg_sizeToInt hnonneg]
  exact (low32_le len).trans hlen

/-- {lit}`aes_cbc_encrypt` returns 0 only if no call fails, not even for a negative length. -/
theorem aesCbcEncrypt_accepts {calls : CipherCalls} {plaintext : List UInt8}
    {plaintextLen : UInt64} {ciphertext written : Buffer n} {ciphertextLen writtenLen : UInt64}
    (hplain : plaintextLen.toNat ≤ plaintext.length)
    (hrun : aesCbcEncrypt cipher calls key iv plaintext plaintextLen ciphertext ciphertextLen =
      .ok (0, written, writtenLen)) :
    Accepted calls ∧ ¬sizeToInt plaintextLen < 0 := by
  rcases cbcCrypt_eq_zero hrun with ⟨hnew, hinit, ctx, out, last, hupdate, hfinal⟩
  rw [encryptUpdate_keyed _ _ _ _ (toNatClampNeg_le hplain)] at hupdate
  by_cases haccept : (calls.update && !decide (sizeToInt plaintextLen < 0)) = true
  · rw [if_pos haccept] at hupdate
    rcases Prod.mk.inj (Option.some.inj (Except.ok.inj hupdate)) with ⟨rfl, rfl⟩
    have hlast : calls.final = true := by
      by_contra hfail
      simp [encryptFinal, hfail] at hfinal
    rcases Bool.and_eq_true_iff.mp haccept with ⟨htext, hnonneg⟩
    exact ⟨⟨hnew, hinit, htext, hlast⟩, by simpa using hnonneg⟩
  · rw [if_neg haccept] at hupdate
    exact absurd (Except.ok.inj hupdate) (by simp)

/-- Without a failing call {lit}`aes_cbc_encrypt` encrypts the padded text of as many bytes as
the converted length says. -/
theorem aesCbcEncrypt_of_accepted {calls : CipherCalls} {plaintext : List UInt8}
    {plaintextLen : UInt64} (ciphertext : Buffer n) (ciphertextLen : UInt64)
    (hcalls : Accepted calls) (hnonneg : ¬sizeToInt plaintextLen < 0)
    (hplain : plaintextLen.toNat ≤ plaintext.length)
    (hroom : 16 * (plaintextLen.toNat / 16 + 1) ≤ n) :
    ∃ written : Buffer n,
      aesCbcEncrypt cipher calls key iv plaintext plaintextLen ciphertext ciphertextLen =
        .ok (0, written, intToSize (Int32.ofNat (16 * (low32 plaintextLen / 16 + 1)))) ∧
      written.bytes.take (16 * (low32 plaintextLen / 16 + 1)) =
        encryptWhole (aes256Cbc cipher key) iv
          (Pkcs7.pad 16 (plaintext.take (low32 plaintextLen))) := by
  rcases hcalls with ⟨hnew, hinit, htext, hlast⟩
  obtain ⟨data, hdata⟩ : ∃ data, data = plaintext.take (low32 plaintextLen) := ⟨_, rfl⟩
  have hle : low32 plaintextLen ≤ plaintextLen.toNat := low32_le _
  have hlow : low32 plaintextLen < 2 ^ 31 := sizeToInt_nonneg_iff.mp hnonneg
  have hlength : data.length = low32 plaintextLen := by
    rw [hdata, List.length_take_of_le (hle.trans hplain)]
  have hupdate := encryptUpdate_keyed (aes256Cbc cipher key) iv calls.update true
    (toNatClampNeg_le hplain)
  rw [if_pos (by simp [htext, hnonneg]), toNatClampNeg_sizeToInt hnonneg, ← hdata] at hupdate
  rcases encryptFinal_padded (aes256Cbc cipher key) iv hlast data with ⟨last, hfinal, hblock, hjoin⟩
  have hout : (encryptWhole (aes256Cbc cipher key) iv data).length =
      16 * (low32 plaintextLen / 16) := by
    rw [length_encryptWhole, hlength]
  have htotal : (encryptWhole (aes256Cbc cipher key) iv data ++ last).length =
      16 * (low32 plaintextLen / 16 + 1) := by
    rw [List.length_append, hout, hblock, Nat.mul_succ]
  rcases cbcCrypt_of_calls calls ciphertext ciphertextLen hnew hinit hupdate hfinal
      (by rw [hout]; omega) (by rw [htotal]; omega) with
    ⟨written, hrun, hwritten⟩
  refine ⟨written, ?_, ?_⟩
  · rw [aesCbcEncrypt, hrun, hout, hblock, Nat.mul_succ]
  · rw [hwritten, List.take_left' htotal, hjoin, hdata]

/-- {lit}`aes_cbc_decrypt` refuses a length that arrives negative. -/
theorem aesCbcDecrypt_of_negative {calls : CipherCalls} {ciphertext : List UInt8}
    {ciphertextLen : UInt64} {plaintext written : Buffer n} {plaintextLen writtenLen : UInt64}
    (hneg : sizeToInt ciphertextLen < 0) :
    aesCbcDecrypt cipher calls key iv ciphertext ciphertextLen plaintext plaintextLen ≠
      .ok (0, written, writtenLen) := by
  intro hrun
  rcases cbcCrypt_eq_zero hrun with ⟨_, _, ctx, out, last, hupdate, _⟩
  have hrefused : ¬(calls.update = true ∧ ¬sizeToInt ciphertextLen < 0) := fun h => h.2 hneg
  simp only [decryptUpdate, keyedCtx, if_neg hrefused] at hupdate
  exact absurd (Except.ok.inj hupdate) (by simp)

/-- Without a failing call {lit}`aes_cbc_decrypt` gives the text back that has been padded and
encrypted. -/
theorem aesCbcDecrypt_of_padded (data : List UInt8) {ciphertext : List UInt8}
    {ciphertextLen : UInt64} (plaintext : Buffer m) (plaintextLen : UInt64)
    (hcipher : ciphertextLen.toNat ≤ ciphertext.length)
    (hmax : ciphertextLen.toNat < 2 ^ 31) (hroom : data.length ≤ m)
    (hinput : ciphertext.take ciphertextLen.toNat =
      encryptWhole (aes256Cbc cipher key) iv (Pkcs7.pad 16 data)) :
    ∃ written : Buffer m,
      aesCbcDecrypt cipher .success key iv ciphertext ciphertextLen plaintext plaintextLen =
        .ok (0, written, intToSize (Int32.ofNat data.length)) ∧
      written.bytes.take data.length = data := by
  have hnonneg : ¬sizeToInt ciphertextLen < 0 := sizeToInt_nonneg_of_max hmax
  have hcount : (sizeToInt ciphertextLen).toNatClampNeg = ciphertextLen.toNat :=
    toNatClampNeg_sizeToInt_of_max hmax
  rcases decrypt_padded (aes256Cbc cipher key) iv data hnonneg (toNatClampNeg_le hcipher hnonneg)
      (by rw [hcount]; exact hinput) with
    ⟨ctx, hupdate, hfinal⟩
  have hjoin := blockBytes_complete data
  have htotal := congrArg List.length hjoin
  rw [List.length_append] at htotal
  have hlength : data.length ≤ ciphertextLen.toNat := by
    have hsize := congrArg List.length hinput
    rw [List.length_take_of_le hcipher, length_encryptWhole, length_pad_div] at hsize
    omega
  rcases cbcCrypt_of_calls .success plaintext plaintextLen rfl rfl hupdate hfinal (by omega)
      (by rw [hjoin]; exact hroom) with
    ⟨written, hrun, hwritten⟩
  refine ⟨written, ?_, ?_⟩
  · rw [aesCbcDecrypt, hrun, htotal]
  · rw [hwritten, hjoin, List.take_left]

end Directions

end AutomotiveSecurity.AesCbc
