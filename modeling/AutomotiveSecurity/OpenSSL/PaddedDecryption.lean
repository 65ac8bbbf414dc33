import AutomotiveSecurity.Foundations.Chaining
import AutomotiveSecurity.OpenSSL.BlockCipher

/-!
# What padded decryption accepts

The two calls of a decryption with padding see the ciphertext in two parts: all blocks but
the last are decrypted and released by the first call, and the second one refuses whatever
does not end in a whole and padded block.  Taken together they invert padded encryption and
accept nothing else.

Main results:

- Theorems {lit}`decryptWhole_encryptWhole` and {lit}`encryptWhole_decryptWhole`: whole blocks
  are recovered in both directions.
- Theorem {lit}`unpad_decryptWhole_iff`: what decrypts to padded text is an encryption of it.
- Theorem {lit}`decryptFinal_heldBack`: the two calls on an arbitrary ciphertext.

Current gaps:

- A ciphertext is fed in one call.
-/

namespace AutomotiveSecurity.OpenSSL

open Memory

section Calls

variable {σ : Type} (mode : BlockMode σ AesBlock) (iv : σ)

/-! ## Whole blocks -/

/-- The decryption of the complete blocks of a ciphertext. -/
def decryptWhole (data : List UInt8) : List UInt8 :=
  blockBytes (mode.decryptBlocks iv (blocksOf 16 (data.length / 16) data)).1

@[simp]
theorem length_decryptWhole (data : List UInt8) :
    (decryptWhole mode iv data).length = 16 * (data.length / 16) := by
  rw [decryptWhole, length_blockBytes, BlockMode.decryptBlocks, length_runBlocks, length_blocksOf]

/-- The blocks of a string made of blocks. -/
theorem blocksOf_whole (blocks : List AesBlock) :
    blocksOf 16 ((blockBytes blocks).length / 16) (blockBytes blocks) = blocks := by
  have hread := blocksOf_blockBytes blocks []
  rwa [List.append_nil, ← Nat.mul_div_cancel_left blocks.length (by decide : 0 < 16),
    ← length_blockBytes] at hread

/-- A string in whole blocks is made of them. -/
theorem blockBytes_whole {data : List UInt8} (hwhole : 16 ∣ data.length) :
    blockBytes (blocksOf 16 (data.length / 16) data) = data := by
  rw [blockBytes_blocksOf (Nat.mul_div_le _ _), Nat.mul_div_cancel' hwhole, List.take_length]

/-- Whole blocks are recovered from their encryption. -/
theorem decryptWhole_encryptWhole {data : List UInt8} (hwhole : 16 ∣ data.length) :
    decryptWhole mode iv (encryptWhole mode iv data) = data := by
  rw [decryptWhole, encryptWhole, blocksOf_whole, mode.decryptBlocks_encryptBlocks,
    blockBytes_whole hwhole]

/-- Whole blocks are the encryption of their decryption. -/
theorem encryptWhole_decryptWhole {data : List UInt8} (hwhole : 16 ∣ data.length) :
    encryptWhole mode iv (decryptWhole mode iv data) = data := by
  rw [encryptWhole, decryptWhole, blocksOf_whole, mode.encryptBlocks_decryptBlocks,
    blockBytes_whole hwhole]

/-- What decrypts to padded text is the encryption of that text, and nothing else is. -/
theorem unpad_decryptWhole_iff {data text : List UInt8} :
    16 ∣ data.length ∧ Pkcs7.unpad 16 (decryptWhole mode iv data) = some text ↔
      data = encryptWhole mode iv (Pkcs7.pad 16 text) := by
  have hpad : 16 ∣ (Pkcs7.pad 16 text).length := by
    rw [Pkcs7.length_pad]
    exact Pkcs7.dvd_add_padLength (by decide) _
  constructor
  · rintro ⟨hwhole, hunpad⟩
    rw [Pkcs7.unpad_eq_some_iff_pad (by decide) (by decide)
      (by rw [length_decryptWhole]; exact Nat.dvd_mul_right _ _)] at hunpad
    rw [← hunpad, encryptWhole_decryptWhole mode iv hwhole]
  · rintro rfl
    refine ⟨?_, ?_⟩
    · rw [length_encryptWhole]
      exact Nat.dvd_mul_right _ _
    · rw [decryptWhole_encryptWhole mode iv hpad]
      exact Pkcs7.unpad_pad (by decide) (by decide) text

/-! ## The two calls -/

/-- What the first call of a padded decryption releases: all blocks that cannot be the
last one. -/
def releasedFront (data : List UInt8) : List UInt8 :=
  blockBytes (mode.decryptBlocks iv (blocksOf 16 ((data.length - 1) / 16) data)).1

@[simp]
theorem length_releasedFront (data : List UInt8) :
    (releasedFront mode iv data).length = 16 * ((data.length - 1) / 16) := by
  rw [releasedFront, length_blockBytes, BlockMode.decryptBlocks, length_runBlocks,
    length_blocksOf]

/-- The context that the first call of a padded decryption leaves. -/
def heldBack (data : List UInt8) : CipherCtx σ where
  keyed := some (mode, (mode.decryptBlocks iv
    (blocksOf 16 ((data.length - 1) / 16) data)).2)
  pending := data.drop (16 * ((data.length - 1) / 16))
  padding := true

/-- The first call on a fresh context releases the front and holds the rest back. -/
theorem decryptUpdate_keyed (succeeds : Bool) {input : List UInt8} {inl : Int32}
    (hlen : ¬inl < 0 → inl.toNatClampNeg ≤ input.length) :
    decryptUpdate succeeds (keyedCtx mode iv true) input inl =
      .ok (if succeeds && !decide (inl < 0) then
          some (heldBack mode iv (input.take inl.toNatClampNeg),
            releasedFront mode iv (input.take inl.toNatClampNeg))
        else none) := by
  show (if succeeds = true ∧ ¬inl < 0 then _ else _) = _
  by_cases hcall : succeeds = true ∧ ¬inl < 0
  · rw [if_pos hcall, load_of_le (hlen hcall.2), if_pos (by simpa using hcall)]
    rfl
  · rw [if_neg hcall, if_neg (by simpa using hcall)]
    rfl

/-- The blocks of a ciphertext are those in front and the last one. -/
theorem decryptWhole_eq {data : List UInt8} (hwhole : 16 ∣ data.length) (hpos : data ≠ []) :
    (data.drop (16 * ((data.length - 1) / 16))).length = 16 ∧
      decryptWhole mode iv data = releasedFront mode iv data ++
        blockBytes (mode.decryptBlocks (mode.decryptBlocks iv
          (blocksOf 16 ((data.length - 1) / 16) data)).2
            (blocksOf 16 1 (data.drop (16 * ((data.length - 1) / 16))))).1 := by
  have hlen : 0 < data.length := List.length_pos_iff.mpr hpos
  have hcount : data.length / 16 = (data.length - 1) / 16 + 1 := by omega
  have hrest : (data.drop (16 * ((data.length - 1) / 16))).length = 16 := by
    rw [List.length_drop]
    omega
  refine ⟨hrest, ?_⟩
  have hfront : blockBytes (blocksOf 16 ((data.length - 1) / 16) data) ++
      blockBytes (blocksOf 16 1 (data.drop (16 * ((data.length - 1) / 16)))) = data := by
    rw [blockBytes_blocksOf (by omega), blockBytes_blocksOf (by rw [hrest]),
      List.take_of_length_le (l := data.drop _) (by rw [hrest]), List.take_append_drop]
  have hblocks : blocksOf 16 (data.length / 16) data =
      blocksOf 16 ((data.length - 1) / 16) data ++
        blocksOf 16 1 (data.drop (16 * ((data.length - 1) / 16))) := by
    have hread := blocksOf_whole (blocksOf 16 ((data.length - 1) / 16) data ++
      blocksOf 16 1 (data.drop (16 * ((data.length - 1) / 16))))
    rwa [blockBytes_append, hfront] at hread
  rw [decryptWhole, hblocks, BlockMode.decryptBlocks, runBlocks_append, blockBytes_append]
  rfl

/-- The second call completes the front exactly to the texts whose padded encryption the
ciphertext is. -/
theorem decryptFinal_heldBack (data text : List UInt8) :
    (∃ last, decryptFinal true (heldBack mode iv data) = some last ∧
        releasedFront mode iv data ++ last = text) ↔
      data = encryptWhole mode iv (Pkcs7.pad 16 text) := by
  rw [← unpad_decryptWhole_iff]
  have hfinal : decryptFinal true (heldBack mode iv data) =
      if (data.drop (16 * ((data.length - 1) / 16))).length = 16 then
        Pkcs7.unpad 16 (blockBytes (mode.decryptBlocks (mode.decryptBlocks iv
          (blocksOf 16 ((data.length - 1) / 16) data)).2
            (blocksOf 16 1 (data.drop (16 * ((data.length - 1) / 16))))).1)
      else none := rfl
  by_cases hwhole : 16 ∣ data.length ∧ data ≠ []
  · rcases decryptWhole_eq mode iv hwhole.1 hwhole.2 with ⟨hrest, hsplit⟩
    have hblock : 16 ≤ (blockBytes (mode.decryptBlocks (mode.decryptBlocks iv
        (blocksOf 16 ((data.length - 1) / 16) data)).2
          (blocksOf 16 1 (data.drop (16 * ((data.length - 1) / 16))))).1).length := by
      rw [length_blockBytes, BlockMode.decryptBlocks, length_runBlocks, length_blocksOf]
    rw [hfinal, if_pos hrest, hsplit, Pkcs7.unpad_append hblock, Option.map_eq_some_iff]
    exact (and_iff_right hwhole.1).symm
  · have hrefused : decryptFinal true (heldBack mode iv data) = none := by
      rw [hfinal, if_neg]
      rw [List.length_drop]
      intro hlast
      apply hwhole
      refine ⟨by omega, ?_⟩
      rintro rfl
      simp at hlast
    refine iff_of_false ?_ ?_
    · rintro ⟨last, hsome, _⟩
      rw [hrefused] at hsome
      exact absurd hsome (by simp)
    · rintro ⟨hdvd, hunpad⟩
      have hnil : data = [] := by
        by_contra hpos
        exact hwhole ⟨hdvd, hpos⟩
      subst hnil
      simp [decryptWhole, blocksOf, BlockMode.decryptBlocks, runBlocks, blockBytes,
        Pkcs7.unpad] at hunpad

end Calls

end AutomotiveSecurity.OpenSSL
