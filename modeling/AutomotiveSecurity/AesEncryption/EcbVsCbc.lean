import AutomotiveSecurity.Foundations.HostLength
import AutomotiveSecurity.OpenSSL.BlockCipher

/-!
# The unpadded functions of {lit}`ecb_vs_cbc.c`

{lit}`aes_ecb_encrypt` and {lit}`aes_cbc_encrypt` differ in the cipher they select and in the IV
only.  Neither looks at the result of a library call, and both always return 0.

Main results:

- Theorem {lit}`unpaddedEncrypt_of_whole`: text in whole blocks is encrypted completely when
  no call fails.
- Theorem {lit}`unpadded_wrappers_truthful_iff`: this is the only case in which the return
  value tells what is in the buffer.

Current gaps:

- {lit}`outlen` is indeterminate until {lit}`EVP_EncryptUpdate` has succeeded; its old value is
  part of the call.
-/

namespace AutomotiveSecurity.EcbVsCbc

open HostLength Memory OpenSSL

variable {σ : Type} {n : Nat}

/-! ## The two functions -/

/-- The last call writes behind what the update call has written, as far as {lit}`outlen`
tells.  An address before the buffer is reported like one behind it. -/
def storeLast (ciphertext : Buffer n) (outlen : Int32) (out : List UInt8) :
    Except Fault (Buffer n) :=
  if out = [] then .ok ciphertext
  else if outlen < 0 then .error (.write n)
  else ciphertext.store outlen.toNatClampNeg out

/-- The common body of the two functions: the return value and {lit}`ciphertext`.  No result
is looked at, so that a failing call leaves everything as it was and the next one is
made; only a missing context ends the program, at {lit}`ctx->encrypt`. -/
def unpaddedEncrypt (mode : BlockMode σ AesBlock) (iv : σ) (calls : CipherCalls)
    (outlen : Int32) (plaintext : List UInt8) (len : UInt64) (ciphertext : Buffer n) :
    Except Fault (Int32 × Buffer n) := do
  let some ctx := cipherCtxNew calls.ctxNew | throw (.read 0)
  let ctx := (cipherInit calls.init ctx mode iv).getD ctx
  let ctx := (cipherSetPadding calls.setPadding ctx false).getD ctx
  match ← encryptUpdate calls.update ctx plaintext (sizeToInt len) with
  | none =>
      let ciphertext ← storeLast ciphertext outlen ((encryptFinal calls.final ctx).getD [])
      return (0, ciphertext)
  | some (ctx, out) =>
      let ciphertext ← ciphertext.store 0 out
      let outlen := Int32.ofNat out.length
      let ciphertext ← storeLast ciphertext outlen ((encryptFinal calls.final ctx).getD [])
      return (0, ciphertext)

/-- The mode that {lit}`EVP_aes_128_ecb()` selects. -/
def aes128Ecb (cipher : BlockCipher (Buffer 16) AesBlock) (key : Buffer 16) :
    BlockMode Unit AesBlock :=
  BlockMode.ecb cipher key

/-- The mode that {lit}`EVP_aes_128_cbc()` selects. -/
def aes128Cbc (cipher : BlockCipher (Buffer 16) AesBlock) (key : Buffer 16) :
    BlockMode AesBlock AesBlock :=
  aesCbc cipher key

/-- {lit}`aes_ecb_encrypt`. -/
def aesEcbEncrypt (cipher : BlockCipher (Buffer 16) AesBlock) (calls : CipherCalls)
    (outlen : Int32) (key : Buffer 16) (plaintext : List UInt8) (len : UInt64)
    (ciphertext : Buffer n) : Except Fault (Int32 × Buffer n) :=
  unpaddedEncrypt (aes128Ecb cipher key) () calls outlen plaintext len ciphertext

/-- {lit}`aes_cbc_encrypt`. -/
def aesCbcEncrypt (cipher : BlockCipher (Buffer 16) AesBlock) (calls : CipherCalls)
    (outlen : Int32) (key iv : Buffer 16) (plaintext : List UInt8) (len : UInt64)
    (ciphertext : Buffer n) : Except Fault (Int32 × Buffer n) :=
  unpaddedEncrypt (aes128Cbc cipher key) iv calls outlen plaintext len ciphertext

/-! ## What is returned -/

/-- There is no other return value than 0; without a context there is none. -/
theorem unpaddedEncrypt_returns_zero {mode : BlockMode σ AesBlock} {iv : σ}
    {calls : CipherCalls} {outlen : Int32} {plaintext : List UInt8} {len : UInt64}
    {ciphertext written : Buffer n} {r : Int32}
    (hrun : unpaddedEncrypt mode iv calls outlen plaintext len ciphertext = .ok (r, written)) :
    r = 0 := by
  rw [unpaddedEncrypt] at hrun
  cases hnew : (cipherCtxNew calls.ctxNew : Option (CipherCtx σ)) with
  | none =>
      rw [hnew] at hrun
      contradiction
  | some ctx =>
      rw [hnew] at hrun
      rcases bind_eq_ok.mp hrun with ⟨result, _, hrest⟩
      cases result with
      | none =>
          rcases bind_eq_ok.mp hrest with ⟨_, _, hreturn⟩
          exact (congrArg Prod.fst (Except.ok.inj hreturn)).symm
      | some update =>
          rcases bind_eq_ok.mp hrest with ⟨_, _, hafter⟩
          rcases bind_eq_ok.mp hafter with ⟨_, _, hreturn⟩
          exact (congrArg Prod.fst (Except.ok.inj hreturn)).symm

/-- Text in whole blocks is encrypted completely when no call fails. -/
theorem unpaddedEncrypt_of_whole (mode : BlockMode σ AesBlock) (iv : σ) (outlen : Int32)
    {plaintext : List UInt8} {len : UInt64} (ciphertext : Buffer n)
    (hplain : len.toNat ≤ plaintext.length) (hmax : len.toNat < 2 ^ 31)
    (hroom : len.toNat ≤ n) (hwhole : 16 ∣ len.toNat) :
    ∃ written,
      unpaddedEncrypt mode iv .success outlen plaintext len ciphertext = .ok (0, written) ∧
        written.bytes.take len.toNat = encryptWhole mode iv (plaintext.take len.toNat) := by
  have hnonneg : ¬sizeToInt len < 0 := sizeToInt_nonneg_of_max hmax
  have hcount : (sizeToInt len).toNatClampNeg = len.toNat := toNatClampNeg_sizeToInt_of_max hmax
  have hlength : (plaintext.take len.toNat).length = len.toNat := List.length_take_of_le hplain
  have hout : (encryptWhole mode iv (plaintext.take len.toNat)).length = len.toNat := by
    rw [length_encryptWhole, hlength, Nat.mul_div_cancel' hwhole]
  have hfits : 0 + (encryptWhole mode iv (plaintext.take len.toNat)).length ≤ n := by omega
  have hupdate := encryptUpdate_keyed mode iv true false
    (fun _ => by rw [hcount]; exact hplain : ¬sizeToInt len < 0 → _ ≤ plaintext.length)
  rw [hcount, if_pos (by simpa using hnonneg)] at hupdate
  have hfinal := encryptFinal_unpadded mode true
    (mode.encryptBlocks iv (blocksOf 16 ((plaintext.take len.toNat).length / 16)
      (plaintext.take len.toNat))).2 (plaintext.take len.toNat)
  rw [if_pos ⟨rfl, by rw [hlength]; exact hwhole⟩] at hfinal
  refine ⟨ciphertext.overwrite 0 _ hfits, ?_, ?_⟩
  · have hstart : (cipherSetPadding true
        ((cipherInit true { keyed := none, pending := [], padding := true } mode iv).getD
          { keyed := none, pending := [], padding := true }) false).getD
        ((cipherInit true { keyed := none, pending := [], padding := true } mode iv).getD
          { keyed := none, pending := [], padding := true }) = keyedCtx mode iv false := rfl
    simp only [unpaddedEncrypt, CipherCalls.success, cipherCtxNew, if_true, hstart, hupdate,
      bind, Except.bind, store_of_le ciphertext hfits]
    rw [hfinal]
    rfl
  · have hread := ciphertext.take_overwrite hfits
    rwa [hout] at hread

/-! ## What the return value tells -/

/-- The return value tells what is in the buffer: 0 stands for the encryption of all
{lit}`len` bytes, and a partial block or a failing call gives another value. -/
def Truthful (mode : BlockMode σ AesBlock) (iv : σ) (calls : CipherCalls)
    (plaintext : List UInt8) (len : UInt64) (run : Except Fault (Int32 × Buffer n)) : Prop :=
  (∀ written, run = .ok (0, written) →
    16 ∣ len.toNat ∧
      written.bytes.take len.toNat = encryptWhole mode iv (plaintext.take len.toNat)) ∧
  (¬16 ∣ len.toNat ∨ calls ≠ .success → ∃ r written, run = .ok (r, written) ∧ r ≠ 0)

theorem truthful_iff (mode : BlockMode σ AesBlock) (iv : σ) (calls : CipherCalls)
    (outlen : Int32) {plaintext : List UInt8} {len : UInt64} (ciphertext : Buffer n)
    (hplain : len.toNat ≤ plaintext.length) (hmax : len.toNat < 2 ^ 31)
    (hroom : len.toNat ≤ n) :
    Truthful mode iv calls plaintext len
        (unpaddedEncrypt mode iv calls outlen plaintext len ciphertext) ↔
      16 ∣ len.toNat ∧ calls = .success := by
  have hworks : ¬(¬16 ∣ len.toNat ∨ calls ≠ .success) ↔ 16 ∣ len.toNat ∧ calls = .success :=
    not_or.trans (and_congr not_not not_not)
  refine (truthful_iff_of_returns_zero unpaddedEncrypt_returns_zero ?_).trans hworks
  rw [hworks]
  rintro ⟨hwhole, rfl⟩
  rcases unpaddedEncrypt_of_whole mode iv outlen ciphertext hplain hmax hroom hwhole with
    ⟨written, hrun, hread⟩
  exact ⟨written, hrun, hwhole, hread⟩

/-- For every key, IV and plaintext up to {lit}`INT_MAX` bytes, every pattern of failures and
every old value of {lit}`outlen`: both functions tell by their return value what is in the
ciphertext buffer exactly if the plaintext is in whole blocks and no call fails.  Without a
context there is no return value at all. -/
theorem unpadded_wrappers_truthful_iff (cipher : BlockCipher (Buffer 16) AesBlock)
    (calls : CipherCalls) (outlen : Int32) (key iv : Buffer 16) (plaintext : List UInt8)
    (len : UInt64) (ciphertext : Buffer n) (hplain : len.toNat ≤ plaintext.length)
    (hmax : len.toNat < 2 ^ 31) (hroom : len.toNat ≤ n) :
    (Truthful (aes128Ecb cipher key) () calls plaintext len
        (aesEcbEncrypt cipher calls outlen key plaintext len ciphertext) ↔
      16 ∣ len.toNat ∧ calls = .success) ∧
    (Truthful (aes128Cbc cipher key) iv calls plaintext len
        (aesCbcEncrypt cipher calls outlen key iv plaintext len ciphertext) ↔
      16 ∣ len.toNat ∧ calls = .success) := by
  constructor
  · exact truthful_iff _ _ calls outlen ciphertext hplain hmax hroom
  · exact truthful_iff _ _ calls outlen ciphertext hplain hmax hroom

/-- The pattern of the demonstration, {lit}`REPEAT_PATTERN!!`. -/
def samplePattern : AesBlock :=
  ⟨[0x52, 0x45, 0x50, 0x45, 0x41, 0x54, 0x5F, 0x50,
    0x41, 0x54, 0x54, 0x45, 0x52, 0x4E, 0x21, 0x21], rfl⟩

/-- The pattern encrypted with AES-128 under a zero key. -/
def encryptedPattern : AesBlock :=
  ⟨[0x09, 0x10, 0xB6, 0x96, 0xC4, 0x14, 0x36, 0xF1,
    0xF5, 0x48, 0xD3, 0x26, 0x3C, 0xAF, 0xFE, 0xB5], rfl⟩

/-- A cipher that is AES-128 under a zero key on the sample pattern. -/
def sampleCipher : BlockCipher (Buffer 16) AesBlock where
  encrypt _ := Equiv.swap samplePattern encryptedPattern
  decrypt _ := Equiv.swap samplePattern encryptedPattern
  decrypt_encrypt := by simp

/-- A 17th byte is dropped, and the return value is the same as without it. -/
theorem last_byte_dropped :
    aesEcbEncrypt sampleCipher .success 0 (Buffer.zero 16) (samplePattern.bytes ++ [0x58]) 17
        (Buffer.zero 17) = .ok (0, ⟨encryptedPattern.bytes ++ [0x00], rfl⟩) ∧
      aesCbcEncrypt sampleCipher .success 0 (Buffer.zero 16) (Buffer.zero 16)
        (samplePattern.bytes ++ [0x58]) 17 (Buffer.zero 17) =
          .ok (0, ⟨encryptedPattern.bytes ++ [0x00], rfl⟩) ∧
      ¬16 ∣ (17 : UInt64).toNat := by
  refine ⟨rfl, rfl, by decide⟩

/-- One whole block is encrypted. -/
theorem sample_pattern_encrypted :
    Truthful (aes128Ecb sampleCipher (Buffer.zero 16)) () .success samplePattern.bytes 16
        (aesEcbEncrypt sampleCipher .success 0 (Buffer.zero 16) samplePattern.bytes 16
          (Buffer.zero 16)) ∧
      Truthful (aes128Cbc sampleCipher (Buffer.zero 16)) (Buffer.zero 16) .success
        samplePattern.bytes 16
        (aesCbcEncrypt sampleCipher .success 0 (Buffer.zero 16) (Buffer.zero 16)
          samplePattern.bytes 16 (Buffer.zero 16)) := by
  have h := unpadded_wrappers_truthful_iff sampleCipher .success 0 (Buffer.zero 16)
    (Buffer.zero 16) samplePattern.bytes 16 (Buffer.zero 16) (by decide) (by decide) (by decide)
  exact ⟨h.1.mpr ⟨by decide, rfl⟩, h.2.mpr ⟨by decide, rfl⟩⟩

end AutomotiveSecurity.EcbVsCbc
