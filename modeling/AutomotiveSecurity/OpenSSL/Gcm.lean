import AutomotiveSecurity.Foundations.Memory
import AutomotiveSecurity.Foundations.StreamAead

/-!
# The GCM calls of OpenSSL

A GCM context is created, given a cipher, an IV length, a key and an IV, fed with
associated data and text, and finished.  The cipher is a parameter; what this module
fixes is what the context holds between the calls, which calls need which calls before
them, and that a failing call writes nothing.

Main results:

- Theorem {lit}`gcmEncryptUpdate_emits`: pieces of text that are fed one after the other come
  out as the encryption of the whole.

Current gaps:

- Each context is used in one direction only.
- The limits of GCM on the length of text under one IV are not modelled.
-/

namespace AutomotiveSecurity.OpenSSL

open Memory

/-- The authenticated ciphers the programs hand to EVP. -/
inductive AeadCipher
  | aes256Gcm
deriving DecidableEq, Repr

/-- The key length of a cipher in bytes. -/
def AeadCipher.keyLength : AeadCipher → Nat
  | .aes256Gcm => 32

/-- The IV length of a cipher in bytes, unless another one is set. -/
def AeadCipher.defaultIvLength : AeadCipher → Nat
  | .aes256Gcm => 12

/-- Whether each call of one encryption or decryption succeeds, as far as it depends on
the library alone.  {lit}`tag` is the call that reads or sets the tag. -/
structure GcmCalls where
  ctxNew : Bool
  initCipher : Bool
  setIvLen : Bool
  initKey : Bool
  updateAad : Bool
  updateText : Bool
  tag : Bool
  final : Bool
deriving DecidableEq, Repr

/-- The pattern in which no call fails. -/
def GcmCalls.success : GcmCalls where
  ctxNew := true
  initCipher := true
  setIvLen := true
  initKey := true
  updateAad := true
  updateText := true
  tag := true
  final := true

/-- An {lit}`EVP_CIPHER_CTX` used for GCM: its settings, the associated data and the
ciphertext of the calls so far, and the tag to be compared or to be read. -/
structure GcmCtx (τ : Type) where
  cipher : Option AeadCipher
  ivLen : Nat
  keyed : Option (List UInt8 × List UInt8)
  aad : List UInt8
  ciphertext : List UInt8
  tag : Option τ
deriving DecidableEq, Repr

/-- The authenticated cipher behind the calls. -/
abbrev GcmFunction (τ : Type) := StreamAead (List UInt8) (List UInt8) τ

section Calls

variable {τ : Type}

/-- {lit}`EVP_CIPHER_CTX_new()`. -/
def gcmCtxNew (succeeds : Bool) : Option (GcmCtx τ) :=
  if succeeds then
    some { cipher := none, ivLen := 0, keyed := none, aad := [], ciphertext := [], tag := none }
  else none

/-- {lit}`EVP_EncryptInit_ex(ctx, cipher, NULL, NULL, NULL)` and its counterpart for
decryption. -/
def gcmInitCipher (succeeds : Bool) (ctx : GcmCtx τ) (cipher : AeadCipher) :
    Option (GcmCtx τ) :=
  if succeeds then
    some { ctx with cipher := some cipher, ivLen := cipher.defaultIvLength }
  else none

/-- {lit}`EVP_CIPHER_CTX_ctrl(ctx, EVP_CTRL_GCM_SET_IVLEN, ivLen, NULL)`. -/
def gcmSetIvLen (succeeds : Bool) (ctx : GcmCtx τ) (ivLen : Nat) : Option (GcmCtx τ) :=
  match ctx.cipher with
  | none => none
  | some _ => if succeeds then some { ctx with ivLen := ivLen } else none

/-- {lit}`EVP_EncryptInit_ex(ctx, NULL, NULL, key, iv)` and its counterpart for decryption:
the lengths read are those of the cipher and of the setting before. -/
def gcmInitKey (succeeds : Bool) (ctx : GcmCtx τ) (key iv : List UInt8) :
    Except Fault (Option (GcmCtx τ)) :=
  match ctx.cipher with
  | none => return none
  | some cipher =>
      if succeeds then do
        let key ← load key cipher.keyLength
        let iv ← load iv ctx.ivLen
        return some { ctx with keyed := some (key, iv), aad := [], ciphertext := [] }
      else return none

/-- {lit}`EVP_EncryptUpdate(ctx, NULL, &len, in, inl)` and its counterpart for decryption:
associated data.  A negative length is refused. -/
def gcmUpdateAad (succeeds : Bool) (ctx : GcmCtx τ) (input : List UInt8) (inl : Int32) :
    Except Fault (Option (GcmCtx τ)) :=
  match ctx.keyed with
  | none => return none
  | some _ =>
      if succeeds ∧ ¬inl < 0 then do
        let aad ← load input inl.toNatClampNeg
        return some { ctx with aad := ctx.aad ++ aad }
      else return none

/-- A call for text, in either direction: the bytes read and the bytes written.  A
negative length is refused. -/
def gcmCryptText (aead : GcmFunction τ) (succeeds : Bool) (ctx : GcmCtx τ)
    (input : List UInt8) (inl : Int32) : Except Fault (Option (List UInt8 × List UInt8)) :=
  match ctx.keyed with
  | none => return none
  | some (key, iv) =>
      if succeeds ∧ ¬inl < 0 then do
        let text ← load input inl.toNatClampNeg
        return some (text, xorKeystream (aead.keystream key iv) ctx.ciphertext.length text)
      else return none

/-- {lit}`EVP_EncryptUpdate(ctx, out, &outl, in, inl)`: the context and the bytes written to
{lit}`out`. -/
def gcmEncryptUpdate (aead : GcmFunction τ) (succeeds : Bool) (ctx : GcmCtx τ)
    (input : List UInt8) (inl : Int32) : Except Fault (Option (GcmCtx τ × List UInt8)) := do
  let some (_, out) ← gcmCryptText aead succeeds ctx input inl | return none
  return some ({ ctx with ciphertext := ctx.ciphertext ++ out }, out)

/-- {lit}`EVP_DecryptUpdate(ctx, out, &outl, in, inl)`: the decryption is written before any
tag has been compared. -/
def gcmDecryptUpdate (aead : GcmFunction τ) (succeeds : Bool) (ctx : GcmCtx τ)
    (input : List UInt8) (inl : Int32) : Except Fault (Option (GcmCtx τ × List UInt8)) := do
  let some (text, out) ← gcmCryptText aead succeeds ctx input inl | return none
  return some ({ ctx with ciphertext := ctx.ciphertext ++ text }, out)

/-- {lit}`EVP_EncryptFinal_ex(ctx, out, &outl)`: the tag becomes available, and GCM writes no
further text. -/
def gcmEncryptFinal (aead : GcmFunction τ) (succeeds : Bool) (ctx : GcmCtx τ) :
    Option (GcmCtx τ × List UInt8) :=
  match ctx.keyed with
  | none => none
  | some (key, iv) =>
      if succeeds then
        some ({ ctx with tag := some (aead.tag key iv ctx.aad ctx.ciphertext) }, [])
      else none

/-- {lit}`EVP_CIPHER_CTX_ctrl(ctx, EVP_CTRL_GCM_GET_TAG, 16, tag)`: what is written to
{lit}`tag`. -/
def gcmGetTag (succeeds : Bool) (ctx : GcmCtx τ) : Option τ :=
  if succeeds then ctx.tag else none

/-- {lit}`EVP_CIPHER_CTX_ctrl(ctx, EVP_CTRL_GCM_SET_TAG, 16, tag)`. -/
def gcmSetTag (succeeds : Bool) (ctx : GcmCtx τ) (tag : τ) : Option (GcmCtx τ) :=
  if succeeds then some { ctx with tag := some tag } else none

/-- {lit}`EVP_DecryptFinal_ex(ctx, out, &outl)`: a positive result only for the right tag. -/
def gcmDecryptFinal [DecidableEq τ] (aead : GcmFunction τ) (succeeds : Bool)
    (ctx : GcmCtx τ) : Option (List UInt8) :=
  match ctx.keyed, ctx.tag with
  | some (key, iv), some tag =>
      if succeeds ∧ tag = aead.tag key iv ctx.aad ctx.ciphertext then some [] else none
  | _, _ => none

variable (aead : GcmFunction τ)

/-- In a keyed context that has emitted the encryption of the text so far, a further piece
of text comes out as what follows in the encryption of the whole. -/
theorem gcmEncryptUpdate_emits {ctx ctx' : GcmCtx τ} {succeeds : Bool}
    {key iv text input out : List UInt8} {inl : Int32} (hkey : ctx.keyed = some (key, iv))
    (hheld : ctx.ciphertext = aead.crypt key iv text)
    (hupdate : gcmEncryptUpdate aead succeeds ctx input inl = .ok (some (ctx', out))) :
    ctx'.ciphertext = aead.crypt key iv (text ++ input.take inl.toNatClampNeg) ∧
      ctx'.ciphertext = ctx.ciphertext ++ out ∧ ctx'.keyed = some (key, iv) := by
  simp only [gcmEncryptUpdate, gcmCryptText, hkey] at hupdate
  by_cases hcall : succeeds = true ∧ ¬inl < 0
  · rw [if_pos hcall] at hupdate
    rcases bind_eq_ok.mp hupdate with ⟨_, hread, hpair⟩
    rcases bind_eq_ok.mp hread with ⟨bs, hload, hsome⟩
    cases hsome
    rcases Prod.mk.inj (Option.some.inj (Except.ok.inj hpair)) with ⟨rfl, rfl⟩
    refine ⟨?_, rfl, rfl⟩
    rw [← (load_eq_ok.mp hload).2]
    show ctx.ciphertext ++ _ = _
    rw [hheld, StreamAead.crypt, StreamAead.crypt, xorKeystream_append, Nat.zero_add,
      length_xorKeystream]
  · rw [if_neg hcall] at hupdate
    exact absurd (Except.ok.inj hupdate) (by simp)

end Calls

end AutomotiveSecurity.OpenSSL
