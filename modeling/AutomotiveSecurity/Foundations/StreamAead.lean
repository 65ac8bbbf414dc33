import Mathlib

/-!
# Authenticated encryption with a keystream

A counter-mode cipher XORs a message with a keystream that the key and the nonce
determine, and authenticates the ciphertext together with associated data.  The
keystream and the tag function are parameters; that decryption inverts encryption,
whole or in pieces, is proved.

Main results:

- Theorem {lit}`xorKeystream_xorKeystream`: the cipher is its own inverse.
- Theorem {lit}`xorKeystream_append`: a message may be processed in pieces.
- Theorem {lit}`zipWith_xorKeystream`: what two ciphertexts under one keystream show.
- Theorem {lit}`decrypt_eq_some_iff`: what decrypts carries the right tag.

Current gaps:

- Nothing is assumed about how hard tags are to forge.
-/

namespace AutomotiveSecurity

/-! ## The keystream cipher -/

/-- The string XORed with the keystream from a position on. -/
def xorKeystream (keystream : Nat → UInt8) : Nat → List UInt8 → List UInt8
  | _, [] => []
  | position, b :: bs =>
      (b ^^^ keystream position) :: xorKeystream keystream (position + 1) bs

@[simp]
theorem length_xorKeystream (keystream : Nat → UInt8) (position : Nat) (data : List UInt8) :
    (xorKeystream keystream position data).length = data.length := by
  induction data generalizing position with
  | nil => rfl
  | cons b bs ih => simp [xorKeystream, ih]

/-- Applying the keystream twice gives the string back. -/
@[simp]
theorem xorKeystream_xorKeystream (keystream : Nat → UInt8) (position : Nat)
    (data : List UInt8) :
    xorKeystream keystream position (xorKeystream keystream position data) = data := by
  induction data generalizing position with
  | nil => rfl
  | cons b bs ih =>
      have hbyte : b ^^^ keystream position ^^^ keystream position = b := by
        rw [UInt8.xor_assoc, UInt8.xor_self, UInt8.xor_zero]
      simp [xorKeystream, ih, hbyte]

/-- A string processed in two pieces continues in the keystream where the first piece
ended. -/
theorem xorKeystream_append (keystream : Nat → UInt8) (position : Nat)
    (xs ys : List UInt8) :
    xorKeystream keystream position (xs ++ ys) =
      xorKeystream keystream position xs ++
        xorKeystream keystream (position + xs.length) ys := by
  induction xs generalizing position with
  | nil => rfl
  | cons x xs ih =>
      have hposition : position + 1 + xs.length = position + (x :: xs).length := by
        rw [List.length_cons]
        omega
      rw [List.cons_append, xorKeystream, ih, hposition, xorKeystream, List.cons_append]

/-- Under one keystream the difference of two ciphertexts is the difference of the texts. -/
theorem zipWith_xorKeystream (keystream : Nat → UInt8) (position : Nat) (xs ys : List UInt8) :
    List.zipWith (· ^^^ ·) (xorKeystream keystream position xs)
        (xorKeystream keystream position ys) =
      List.zipWith (· ^^^ ·) xs ys := by
  induction xs generalizing position ys with
  | nil => rfl
  | cons x xs ih =>
      cases ys with
      | nil => rfl
      | cons y ys =>
          have hbyte : x ^^^ keystream position ^^^ (y ^^^ keystream position) = x ^^^ y := by
            rw [UInt8.xor_assoc, UInt8.xor_comm y, ← UInt8.xor_assoc (keystream position),
              UInt8.xor_self, UInt8.zero_xor]
          simp [xorKeystream, ih, hbyte]

/-- A string is recovered from its difference to a longer one. -/
theorem zipWith_xor_cancel {xs ys : List UInt8} (hlen : ys.length ≤ xs.length) :
    List.zipWith (· ^^^ ·) xs (List.zipWith (· ^^^ ·) xs ys) = ys := by
  induction ys generalizing xs with
  | nil => simp
  | cons y ys ih =>
      cases xs with
      | nil => simp at hlen
      | cons x xs =>
          have hbyte : x ^^^ (x ^^^ y) = y := by
            rw [← UInt8.xor_assoc, UInt8.xor_self, UInt8.zero_xor]
          have hrest : List.zipWith (· ^^^ ·) xs (List.zipWith (· ^^^ ·) xs ys) = ys :=
            ih (by simpa using hlen)
          simp only [List.zipWith_cons_cons, hbyte, hrest]

/-! ## One-shot encryption -/

/-- A keystream cipher with a tag over the associated data and the ciphertext. -/
structure StreamAead (κ ν τ : Type*) where
  keystream : κ → ν → Nat → UInt8
  tag : κ → ν → List UInt8 → List UInt8 → τ

namespace StreamAead

variable {κ ν τ : Type*} (aead : StreamAead κ ν τ) (key : κ) (nonce : ν)

/-- The text encrypted, or an encrypted text decrypted. -/
def crypt (data : List UInt8) : List UInt8 :=
  xorKeystream (aead.keystream key nonce) 0 data

/-- One-shot authenticated encryption: the ciphertext and its tag. -/
def encrypt (aad plaintext : List UInt8) : List UInt8 × τ :=
  (aead.crypt key nonce plaintext, aead.tag key nonce aad (aead.crypt key nonce plaintext))

/-- One-shot authenticated decryption: the plaintext, if the tag is right. -/
def decrypt [DecidableEq τ] (aad ciphertext : List UInt8) (tag : τ) : Option (List UInt8) :=
  if tag = aead.tag key nonce aad ciphertext then some (aead.crypt key nonce ciphertext)
  else none

@[simp]
theorem length_crypt (data : List UInt8) : (aead.crypt key nonce data).length = data.length :=
  length_xorKeystream _ _ data

theorem length_crypt_take {data : List UInt8} {count : Nat} (hcount : count ≤ data.length) :
    (aead.crypt key nonce (data.take count)).length = count := by
  rw [length_crypt, List.length_take_of_le hcount]

@[simp]
theorem crypt_crypt (data : List UInt8) :
    aead.crypt key nonce (aead.crypt key nonce data) = data :=
  xorKeystream_xorKeystream _ _ data

theorem decrypt_eq_some_iff [DecidableEq τ] {aad ciphertext plaintext : List UInt8} {tag : τ} :
    aead.decrypt key nonce aad ciphertext tag = some plaintext ↔
      tag = aead.tag key nonce aad ciphertext ∧ aead.crypt key nonce ciphertext = plaintext := by
  unfold decrypt
  by_cases htag : tag = aead.tag key nonce aad ciphertext <;> simp [htag]

end StreamAead

end AutomotiveSecurity
