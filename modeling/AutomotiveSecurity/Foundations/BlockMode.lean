import AutomotiveSecurity.Foundations.Memory

/-!
# Block ciphers in a mode of operation

A mode of operation processes a message block by block and carries a state from one
block to the next.  Both directions of a mode update that state alike, which is all
that is needed for decryption to invert encryption on messages of any length.

Main results:

- Theorem {lit}`runBlocks_append`: a message may be processed in pieces.
- Theorem {lit}`BlockMode.decryptBlocks_encryptBlocks`: in every mode decryption inverts
  encryption.
- Theorems {lit}`blockBytes_blocksOf` and {lit}`blocksOf_blockBytes`: byte strings as lists of
  blocks and back.

Current gaps:

- Nothing is assumed about the secrecy a mode provides.
-/

namespace AutomotiveSecurity

open Memory

/-! ## Runs over blocks -/

section Runs

variable {σ β : Type*}

/-- Process blocks one after the other: the resulting blocks and the last state. -/
def runBlocks (step : σ → β → β × σ) : σ → List β → List β × σ
  | s, [] => ([], s)
  | s, b :: bs =>
      ((step s b).1 :: (runBlocks step (step s b).2 bs).1, (runBlocks step (step s b).2 bs).2)

@[simp]
theorem length_runBlocks (step : σ → β → β × σ) (s : σ) (bs : List β) :
    (runBlocks step s bs).1.length = bs.length := by
  induction bs generalizing s with
  | nil => rfl
  | cons b bs ih => simp [runBlocks, ih]

/-- The second piece of a message is processed in the state the first one has left. -/
theorem runBlocks_append (step : σ → β → β × σ) (s : σ) (xs ys : List β) :
    runBlocks step s (xs ++ ys) =
      ((runBlocks step s xs).1 ++ (runBlocks step (runBlocks step s xs).2 ys).1,
        (runBlocks step (runBlocks step s xs).2 ys).2) := by
  induction xs generalizing s with
  | nil => rfl
  | cons x xs ih => simp [runBlocks, ih]

/-- A step that undoes each block and follows the state undoes whole messages. -/
theorem runBlocks_runBlocks {step undo : σ → β → β × σ}
    (hundo : ∀ s b, undo s (step s b).1 = (b, (step s b).2)) (s : σ) (bs : List β) :
    runBlocks undo s (runBlocks step s bs).1 = (bs, (runBlocks step s bs).2) := by
  induction bs generalizing s with
  | nil => rfl
  | cons b bs ih => simp [runBlocks, hundo, ih]

end Runs

/-! ## Modes of operation -/

/-- A block cipher: a permutation of the blocks for each key. -/
structure BlockCipher (κ β : Type*) where
  encrypt : κ → β → β
  decrypt : κ → β → β
  decrypt_encrypt : ∀ key b, decrypt key (encrypt key b) = b

/-- A keyed mode of operation with its chaining state. -/
structure BlockMode (σ β : Type*) where
  encrypt : σ → β → β × σ
  decrypt : σ → β → β × σ
  decrypt_encrypt : ∀ s b, decrypt s (encrypt s b).1 = (b, (encrypt s b).2)

namespace BlockMode

variable {κ σ β : Type*}

/-- Electronic codebook: each block on its own. -/
def ecb (cipher : BlockCipher κ β) (key : κ) : BlockMode Unit β where
  encrypt s b := (cipher.encrypt key b, s)
  decrypt s b := (cipher.decrypt key b, s)
  decrypt_encrypt := by
    intro s b
    rw [cipher.decrypt_encrypt]

/-- Cipher block chaining: each block is combined with the ciphertext block before it. -/
def cbc (combine : β → β → β) (hcombine : ∀ a b, combine (combine a b) b = a)
    (cipher : BlockCipher κ β) (key : κ) : BlockMode β β where
  encrypt chain b := (cipher.encrypt key (combine b chain), cipher.encrypt key (combine b chain))
  decrypt chain c := (combine (cipher.decrypt key c) chain, c)
  decrypt_encrypt := by
    intro chain b
    rw [cipher.decrypt_encrypt, hcombine]

variable (mode : BlockMode σ β)

/-- The blocks of a message encrypted, and the state for the next one. -/
def encryptBlocks : σ → List β → List β × σ :=
  runBlocks mode.encrypt

/-- The blocks of a message decrypted, and the state for the next one. -/
def decryptBlocks : σ → List β → List β × σ :=
  runBlocks mode.decrypt

/-- In every mode decryption inverts encryption, for messages of any length. -/
theorem decryptBlocks_encryptBlocks (s : σ) (bs : List β) :
    mode.decryptBlocks s (mode.encryptBlocks s bs).1 = (bs, (mode.encryptBlocks s bs).2) :=
  runBlocks_runBlocks mode.decrypt_encrypt s bs

end BlockMode

/-! ## Byte strings as blocks -/

section Blocks

variable {n : Nat}

/-- Two blocks XORed byte by byte. -/
def xorBlock (a b : Buffer n) : Buffer n where
  bytes := List.zipWith (· ^^^ ·) a.bytes b.bytes
  size_eq := by simp

/-- XORing a block with another one twice changes nothing. -/
theorem xorBlock_xorBlock (a b : Buffer n) : xorBlock (xorBlock a b) b = a := by
  apply Buffer.ext
  have hlen : a.bytes.length = b.bytes.length := by
    rw [a.size_eq, b.size_eq]
  show List.zipWith (· ^^^ ·) (List.zipWith (· ^^^ ·) a.bytes b.bytes) b.bytes = a.bytes
  generalize a.bytes = xs at hlen ⊢
  generalize b.bytes = ys at hlen ⊢
  induction xs generalizing ys with
  | nil => rfl
  | cons x xs ih =>
      cases ys with
      | nil => simp at hlen
      | cons y ys =>
          have hbyte : x ^^^ y ^^^ y = x := by
            rw [UInt8.xor_assoc, UInt8.xor_self, UInt8.xor_zero]
          simp [hbyte, ih ys (by simpa using hlen)]

/-- The first {lit}`count` blocks of a byte string. -/
def blocksOf (n : Nat) : Nat → List UInt8 → List (Buffer n)
  | 0, _ => []
  | count + 1, bs => Buffer.initialised n bs :: blocksOf n count (bs.drop n)

/-- The bytes of the given blocks. -/
def blockBytes (blocks : List (Buffer n)) : List UInt8 :=
  blocks.flatMap Buffer.bytes

@[simp]
theorem length_blocksOf (count : Nat) (bs : List UInt8) :
    (blocksOf n count bs).length = count := by
  induction count generalizing bs with
  | zero => rfl
  | succ count ih => simp [blocksOf, ih]

@[simp]
theorem length_blockBytes (blocks : List (Buffer n)) :
    (blockBytes blocks).length = n * blocks.length := by
  induction blocks with
  | nil => simp [blockBytes]
  | cons b blocks ih =>
      have hcons : blockBytes (b :: blocks) = b.bytes ++ blockBytes blocks := List.flatMap_cons
      rw [hcons, List.length_append, b.size_eq, ih, List.length_cons, Nat.mul_succ, Nat.add_comm]

theorem blockBytes_append (xs ys : List (Buffer n)) :
    blockBytes (xs ++ ys) = blockBytes xs ++ blockBytes ys :=
  List.flatMap_append

/-- A block is read from the front of a string that is long enough. -/
theorem initialised_bytes {bs : List UInt8} (hlen : n ≤ bs.length) :
    (Buffer.initialised n bs).bytes = bs.take n :=
  List.take_append_of_le_length hlen

/-- The blocks of a string hold its first bytes. -/
theorem blockBytes_blocksOf {count : Nat} {bs : List UInt8} (hlen : n * count ≤ bs.length) :
    blockBytes (blocksOf n count bs) = bs.take (n * count) := by
  induction count generalizing bs with
  | zero => simp [blocksOf, blockBytes]
  | succ count ih =>
      rw [Nat.mul_succ] at hlen
      have hrest : n * count ≤ (bs.drop n).length := by
        rw [List.length_drop]
        omega
      have hfirst : (Buffer.initialised n bs).bytes = bs.take n := initialised_bytes (by omega)
      show (Buffer.initialised n bs).bytes ++ blockBytes (blocksOf n count (bs.drop n)) = _
      rw [hfirst, ih hrest, Nat.mul_succ, Nat.add_comm, List.take_add]

/-- The blocks are read back from their bytes, whatever follows them. -/
theorem blocksOf_blockBytes (blocks : List (Buffer n)) (rest : List UInt8) :
    blocksOf n blocks.length (blockBytes blocks ++ rest) = blocks := by
  induction blocks with
  | nil => rfl
  | cons b blocks ih =>
      have hcons : blockBytes (b :: blocks) ++ rest = b.bytes ++ (blockBytes blocks ++ rest) := by
        rw [blockBytes, List.flatMap_cons, List.append_assoc]
        rfl
      have hfirst : Buffer.initialised n (b.bytes ++ (blockBytes blocks ++ rest)) = b := by
        apply Buffer.ext
        rw [initialised_bytes (by simp), List.take_left' b.size_eq]
      rw [hcons, List.length_cons, blocksOf, hfirst, List.drop_left' b.size_eq, ih]

end Blocks

end AutomotiveSecurity
