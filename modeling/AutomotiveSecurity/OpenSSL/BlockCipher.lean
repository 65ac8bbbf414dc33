import AutomotiveSecurity.Foundations.BlockMode
import AutomotiveSecurity.Foundations.Pkcs7

/-!
# The block cipher calls of OpenSSL

A cipher context is created, keyed, fed and finished.  It emits whole blocks and keeps
the bytes that do not fill one; with padding, the last call completes them, and
decryption holds the last block back until then.  The cipher and its mode are
parameters.

Main results:

- Theorems {lit}`encryptUpdate_keyed` and {lit}`encryptFinal_padded`: with padding, the two
  calls encrypt the padded text.
- Theorem {lit}`decrypt_padded`: decryption gives the text back.
- Theorem {lit}`encryptFinal_unpadded`: without padding, a partial block is refused.

Current gaps:

- A message is fed in one call in the results; several calls are modelled.
- The calls are given a context; what a program does without one is left to the program.
-/

namespace AutomotiveSecurity.OpenSSL

open Memory

/-- A block of AES. -/
abbrev AesBlock := Buffer 16

/-- AES in CBC mode, for any key size. -/
def aesCbc {κ : Type} (cipher : BlockCipher κ AesBlock) (key : κ) :
    BlockMode AesBlock AesBlock :=
  BlockMode.cbc xorBlock xorBlock_xorBlock cipher key

/-- Whether each call of one encryption or decryption succeeds, as far as it depends on
the library alone. -/
structure CipherCalls where
  ctxNew : Bool
  init : Bool
  setPadding : Bool
  update : Bool
  final : Bool
deriving DecidableEq, Repr

/-- The pattern in which no call fails. -/
def CipherCalls.success : CipherCalls where
  ctxNew := true
  init := true
  setPadding := true
  update := true
  final := true

/-- An {lit}`EVP_CIPHER_CTX` used for a block cipher: the keyed mode with its chaining state,
the bytes kept back, and whether padding is enabled. -/
structure CipherCtx (σ : Type) where
  keyed : Option (BlockMode σ AesBlock × σ)
  pending : List UInt8
  padding : Bool

section Calls

variable {σ : Type}

/-- {lit}`EVP_CIPHER_CTX_new()`. -/
def cipherCtxNew (succeeds : Bool) : Option (CipherCtx σ) :=
  if succeeds then some { keyed := none, pending := [], padding := true } else none

/-- {lit}`EVP_EncryptInit_ex(ctx, cipher, NULL, key, iv)` and its counterpart for
decryption. -/
def cipherInit (succeeds : Bool) (ctx : CipherCtx σ) (mode : BlockMode σ AesBlock) (iv : σ) :
    Option (CipherCtx σ) :=
  if succeeds then some { ctx with keyed := some (mode, iv), pending := [] } else none

/-- {lit}`EVP_CIPHER_CTX_set_padding(ctx, padding)`. -/
def cipherSetPadding (succeeds : Bool) (ctx : CipherCtx σ) (padding : Bool) :
    Option (CipherCtx σ) :=
  if succeeds then some { ctx with padding := padding } else none

/-- {lit}`EVP_EncryptUpdate(ctx, out, &outl, in, inl)`: the context and the bytes written to
{lit}`out`.  A negative length is refused. -/
def encryptUpdate (succeeds : Bool) (ctx : CipherCtx σ) (input : List UInt8) (inl : Int32) :
    Except Fault (Option (CipherCtx σ × List UInt8)) :=
  match ctx.keyed with
  | none => return none
  | some (mode, s) =>
      if succeeds ∧ ¬inl < 0 then do
        let data ← load input inl.toNatClampNeg
        let held := ctx.pending ++ data
        let count := held.length / 16
        let result := mode.encryptBlocks s (blocksOf 16 count held)
        return some
          ({ ctx with keyed := some (mode, result.2), pending := held.drop (16 * count) },
            blockBytes result.1)
      else return none

/-- {lit}`EVP_EncryptFinal_ex(ctx, out, &outl)`: the bytes written to {lit}`out`.  Without
padding a partial block is an error. -/
def encryptFinal (succeeds : Bool) (ctx : CipherCtx σ) : Option (List UInt8) :=
  match ctx.keyed with
  | none => none
  | some (mode, s) =>
      if succeeds then
        if ctx.padding then
          some (blockBytes (mode.encryptBlocks s (blocksOf 16 1 (Pkcs7.pad 16 ctx.pending))).1)
        else if ctx.pending = [] then some [] else none
      else none

/-- {lit}`EVP_DecryptUpdate(ctx, out, &outl, in, inl)`: with padding the last block is held
back, as it may be the padding. -/
def decryptUpdate (succeeds : Bool) (ctx : CipherCtx σ) (input : List UInt8) (inl : Int32) :
    Except Fault (Option (CipherCtx σ × List UInt8)) :=
  match ctx.keyed with
  | none => return none
  | some (mode, s) =>
      if succeeds ∧ ¬inl < 0 then do
        let data ← load input inl.toNatClampNeg
        let held := ctx.pending ++ data
        let count := if ctx.padding then (held.length - 1) / 16 else held.length / 16
        let result := mode.decryptBlocks s (blocksOf 16 count held)
        return some
          ({ ctx with keyed := some (mode, result.2), pending := held.drop (16 * count) },
            blockBytes result.1)
      else return none

/-- {lit}`EVP_DecryptFinal_ex(ctx, out, &outl)`: the bytes written to {lit}`out`.  With padding
there must be one whole block left, correctly padded. -/
def decryptFinal (succeeds : Bool) (ctx : CipherCtx σ) : Option (List UInt8) :=
  match ctx.keyed with
  | none => none
  | some (mode, s) =>
      if succeeds then
        if ctx.padding then
          if ctx.pending.length = 16 then
            Pkcs7.unpad 16
              (blockBytes (mode.decryptBlocks s (blocksOf 16 1 ctx.pending)).1)
          else none
        else if ctx.pending = [] then some [] else none
      else none

/-- A context that has just been given its mode and its IV. -/
def keyedCtx (mode : BlockMode σ AesBlock) (iv : σ) (padding : Bool) : CipherCtx σ where
  keyed := some (mode, iv)
  pending := []
  padding := padding

/-! ## Whole messages -/

/-- The encryption of the complete blocks of a text. -/
def encryptWhole (mode : BlockMode σ AesBlock) (iv : σ) (data : List UInt8) : List UInt8 :=
  blockBytes (mode.encryptBlocks iv (blocksOf 16 (data.length / 16) data)).1

variable (mode : BlockMode σ AesBlock) (iv : σ)

@[simp]
theorem length_encryptWhole (data : List UInt8) :
    (encryptWhole mode iv data).length = 16 * (data.length / 16) := by
  rw [encryptWhole, length_blockBytes, BlockMode.encryptBlocks, length_runBlocks, length_blocksOf]

/-- What is left of a text behind its complete blocks. -/
def partialBlock (data : List UInt8) : List UInt8 :=
  data.drop (16 * (data.length / 16))

theorem length_partialBlock_lt (data : List UInt8) : (partialBlock data).length < 16 := by
  have hmod : data.length % 16 < 16 := Nat.mod_lt _ (by decide)
  rw [partialBlock, List.length_drop]
  omega

theorem length_pad_partialBlock (data : List UInt8) :
    (Pkcs7.pad 16 (partialBlock data)).length = 16 := by
  have hlt := length_partialBlock_lt data
  rw [Pkcs7.length_pad, Pkcs7.add_padLength (by decide)]
  omega

/-- The complete blocks of a text hold everything but its partial block. -/
theorem blockBytes_complete (data : List UInt8) :
    blockBytes (blocksOf 16 (data.length / 16) data) ++ partialBlock data = data := by
  rw [blockBytes_blocksOf (Nat.mul_div_le _ _), partialBlock, List.take_append_drop]

/-- The blocks of a padded text are its complete blocks and a last one made of the rest
and the padding. -/
theorem blocksOf_pad (data : List UInt8) :
    blocksOf 16 (data.length / 16 + 1) (Pkcs7.pad 16 data) =
      blocksOf 16 (data.length / 16) data ++
        blocksOf 16 1 (Pkcs7.pad 16 (partialBlock data)) := by
  have hlast : blockBytes (blocksOf 16 1 (Pkcs7.pad 16 (partialBlock data))) =
      Pkcs7.pad 16 (partialBlock data) := by
    rw [blockBytes_blocksOf (by rw [length_pad_partialBlock]),
      List.take_of_length_le (by rw [length_pad_partialBlock])]
  have hfront : 16 ∣ (blockBytes (blocksOf 16 (data.length / 16) data)).length := by
    rw [length_blockBytes]
    exact Nat.dvd_mul_right _ _
  have hbytes : Pkcs7.pad 16 data =
      blockBytes (blocksOf 16 (data.length / 16) data ++
        blocksOf 16 1 (Pkcs7.pad 16 (partialBlock data))) ++ [] := by
    rw [List.append_nil, blockBytes_append, hlast, ← Pkcs7.pad_split hfront,
      blockBytes_complete]
  have hcount : (blocksOf 16 (data.length / 16) data ++
      blocksOf 16 1 (Pkcs7.pad 16 (partialBlock data))).length = data.length / 16 + 1 := by
    rw [List.length_append, length_blocksOf, length_blocksOf]
  rw [hbytes, ← hcount, blocksOf_blockBytes]

/-- The number of blocks of a padded text. -/
theorem length_pad_div (data : List UInt8) :
    (Pkcs7.pad 16 data).length / 16 = data.length / 16 + 1 := by
  rw [Pkcs7.length_pad, Pkcs7.add_padLength (by decide), Nat.mul_div_cancel_left _ (by decide)]

/-- An update call on a fresh context encrypts the complete blocks and keeps the rest. -/
theorem encryptUpdate_keyed (succeeds padding : Bool) {input : List UInt8} {inl : Int32}
    (hlen : ¬inl < 0 → inl.toNatClampNeg ≤ input.length) :
    encryptUpdate succeeds (keyedCtx mode iv padding) input inl =
      .ok (if succeeds && !decide (inl < 0) then
          some
            ({ keyed := some (mode, (mode.encryptBlocks iv
                (blocksOf 16 ((input.take inl.toNatClampNeg).length / 16)
                  (input.take inl.toNatClampNeg))).2)
               pending := partialBlock (input.take inl.toNatClampNeg)
               padding := padding },
              encryptWhole mode iv (input.take inl.toNatClampNeg))
        else none) := by
  show (if succeeds = true ∧ ¬inl < 0 then _ else _) = _
  by_cases hcall : succeeds = true ∧ ¬inl < 0
  · rw [if_pos hcall, load_of_le (hlen hcall.2), if_pos (by simpa using hcall)]
    rfl
  · rw [if_neg hcall, if_neg (by simpa using hcall)]
    rfl

/-- With padding the last call completes the encryption of the padded text. -/
theorem encryptFinal_padded {succeeds : Bool} (hsucceeds : succeeds = true)
    (data : List UInt8) :
    ∃ last, encryptFinal succeeds
        { keyed := some (mode, (mode.encryptBlocks iv
            (blocksOf 16 (data.length / 16) data)).2)
          pending := partialBlock data
          padding := true } = some last ∧
      last.length = 16 ∧
      encryptWhole mode iv data ++ last = encryptWhole mode iv (Pkcs7.pad 16 data) := by
  subst hsucceeds
  refine ⟨_, rfl, ?_, ?_⟩
  · rw [length_blockBytes, BlockMode.encryptBlocks, length_runBlocks, length_blocksOf]
  · rw [encryptWhole, encryptWhole, length_pad_div, blocksOf_pad, BlockMode.encryptBlocks,
      runBlocks_append, ← blockBytes_append]

/-- With padding a fresh context decrypts what was encrypted: the update call gives the
complete blocks of the text and the last call the rest. -/
theorem decrypt_padded (data : List UInt8) {input : List UInt8} {inl : Int32}
    (hnonneg : ¬inl < 0) (hlen : inl.toNatClampNeg ≤ input.length)
    (hinput : input.take inl.toNatClampNeg = encryptWhole mode iv (Pkcs7.pad 16 data)) :
    ∃ ctx, decryptUpdate true (keyedCtx mode iv true) input inl =
        .ok (some (ctx, blockBytes (blocksOf 16 (data.length / 16) data))) ∧
      decryptFinal true ctx = some (partialBlock data) := by
  obtain ⟨cs, hcs⟩ : ∃ cs, cs =
      mode.encryptBlocks iv (blocksOf 16 (data.length / 16) data) := ⟨_, rfl⟩
  obtain ⟨ds, hds⟩ : ∃ ds, ds =
      mode.encryptBlocks cs.2 (blocksOf 16 1 (Pkcs7.pad 16 (partialBlock data))) := ⟨_, rfl⟩
  have hcipher : encryptWhole mode iv (Pkcs7.pad 16 data) =
      blockBytes cs.1 ++ blockBytes ds.1 := by
    rw [encryptWhole, length_pad_div, blocksOf_pad, BlockMode.encryptBlocks, runBlocks_append,
      blockBytes_append, hds, hcs]
    rfl
  have hcsLen : cs.1.length = data.length / 16 := by
    rw [hcs, BlockMode.encryptBlocks, length_runBlocks, length_blocksOf]
  have hdsLen : ds.1.length = 1 := by
    rw [hds, BlockMode.encryptBlocks, length_runBlocks, length_blocksOf]
  have hfront : (blockBytes cs.1).length = 16 * (data.length / 16) := by
    rw [length_blockBytes, hcsLen]
  have hback : (blockBytes ds.1).length = 16 := by
    rw [length_blockBytes, hdsLen]
  -- All blocks but the last one are decrypted by the update call.
  have hcount : ((encryptWhole mode iv (Pkcs7.pad 16 data)).length - 1) / 16 =
      data.length / 16 := by
    rw [hcipher, List.length_append, hfront, hback]
    omega
  have hblocks : blocksOf 16 (data.length / 16) (encryptWhole mode iv (Pkcs7.pad 16 data)) =
      cs.1 := by
    rw [hcipher, ← hcsLen, blocksOf_blockBytes]
  have hpending : (encryptWhole mode iv (Pkcs7.pad 16 data)).drop (16 * (data.length / 16)) =
      blockBytes ds.1 := by
    rw [hcipher, List.drop_left' hfront]
  have hfirst : mode.decryptBlocks iv cs.1 = (blocksOf 16 (data.length / 16) data, cs.2) := by
    rw [hcs, mode.decryptBlocks_encryptBlocks]
  refine ⟨{ keyed := some (mode, cs.2), pending := blockBytes ds.1, padding := true }, ?_, ?_⟩
  · show (if true = true ∧ ¬inl < 0 then _ else _) = _
    rw [if_pos ⟨rfl, hnonneg⟩, load_of_le hlen, hinput]
    simp only [keyedCtx, bind, Except.bind, List.nil_append, if_true, hcount, hblocks,
      hpending, hfirst]
    rfl
  · have hblock : blocksOf 16 1 (blockBytes ds.1) = ds.1 := by
      have hread := blocksOf_blockBytes ds.1 []
      rwa [List.append_nil, hdsLen] at hread
    have hlast : mode.decryptBlocks cs.2 ds.1 =
        (blocksOf 16 1 (Pkcs7.pad 16 (partialBlock data)), ds.2) := by
      rw [hds, mode.decryptBlocks_encryptBlocks]
    have hbytes : blockBytes (blocksOf 16 1 (Pkcs7.pad 16 (partialBlock data))) =
        Pkcs7.pad 16 (partialBlock data) := by
      rw [blockBytes_blocksOf (by rw [length_pad_partialBlock]),
        List.take_of_length_le (by rw [length_pad_partialBlock])]
    simp only [decryptFinal, if_true, hback, hblock, hlast, hbytes]
    exact Pkcs7.unpad_pad (by decide) (by decide) _

/-- Without padding a text in whole blocks is encrypted by the update call, and the last
call has nothing left to do; a partial block makes it fail. -/
theorem encryptFinal_unpadded (succeeds : Bool) (s : σ) (data : List UInt8) :
    encryptFinal succeeds
        { keyed := some (mode, s), pending := partialBlock data, padding := false } =
      if succeeds ∧ 16 ∣ data.length then some [] else none := by
  have hwhole : partialBlock data = [] ↔ 16 ∣ data.length := by
    rw [← List.length_eq_zero_iff, partialBlock, List.length_drop]
    omega
  cases succeeds with
  | false => simp [encryptFinal]
  | true => simp [encryptFinal, hwhole]

end Calls

end AutomotiveSecurity.OpenSSL
