import AutomotiveSecurity.Foundations.BlockMode
import AutomotiveSecurity.Foundations.Pkcs7

/-!
# What a padding check tells about a block

A receiver that removes padding tells, by accepting or refusing, whether a block ends in
padding.  Where someone else chooses what the block is combined with, the answers tell more:
all of the block.

Main results:

- Theorem {lit}`padded_iff`: padding by the bytes of a block.
- Theorem {lit}`padded_xorBlock_iff`: two blocks that get the same answers are the same.

Current gaps:

- How few answers are enough is not said.
-/

namespace AutomotiveSecurity

open Memory

variable {n : Nat}

/-! ## Bytes of a block -/

/-- The byte of an object at an index, 0 outside it. -/
def byteAt (b : Buffer n) (j : Nat) : UInt8 :=
  b.bytes.getD j 0

/-- The block with the given bytes. -/
def tabulate (n : Nat) (f : Nat → UInt8) : Buffer n where
  bytes := (List.range n).map f
  size_eq := by simp

theorem byteAt_tabulate (f : Nat → UInt8) {j : Nat} (hj : j < n) :
    byteAt (tabulate n f) j = f j := by
  simp [byteAt, tabulate, List.getD_eq_getElem?_getD, hj]

theorem byteAt_eq_getElem (b : Buffer n) {j : Nat} (hj : j < b.bytes.length) :
    byteAt b j = b.bytes.get ⟨j, hj⟩ := by
  rw [byteAt, List.getD_eq_getElem?_getD, List.getElem?_eq_getElem hj]
  rfl

/-- Blocks with the same bytes are the same. -/
theorem ext_byteAt {a b : Buffer n} (hbytes : ∀ j < n, byteAt a j = byteAt b j) : a = b := by
  apply Buffer.ext
  apply List.ext_get (a.size_eq.trans b.size_eq.symm)
  intro j hja hjb
  rw [← byteAt_eq_getElem a hja, ← byteAt_eq_getElem b hjb]
  exact hbytes j (by rwa [a.size_eq] at hja)

@[simp]
theorem byteAt_xorBlock (a b : Buffer n) (j : Nat) :
    byteAt (xorBlock a b) j = byteAt a j ^^^ byteAt b j := by
  by_cases hj : j < n
  · simp [byteAt, xorBlock, List.getD_eq_getElem?_getD, hj]
  · simp [byteAt, xorBlock, List.getD_eq_getElem?_getD, hj]

/-! ## Padding -/

/-- The block ends in padding. -/
def Padded (b : Buffer n) : Prop :=
  ∃ text, Pkcs7.unpad n b.bytes = some text

/-- A block ends in padding exactly if its last bytes all hold their number. -/
theorem padded_iff (b : Buffer n) :
    Padded b ↔ ∃ last : UInt8, 0 < last.toNat ∧ last.toNat ≤ n ∧
      ∀ j < n, n - last.toNat ≤ j → byteAt b j = last := by
  constructor
  · rintro ⟨text, hunpad⟩
    rcases Pkcs7.unpad_eq_some_iff.mp hunpad with ⟨last, hpos, hle, hbytes⟩
    refine ⟨last, hpos, hle, ?_⟩
    intro j hj hlast
    have hlen := congrArg List.length hbytes
    rw [b.size_eq, List.length_append, List.length_replicate] at hlen
    have hin : j - text.length < last.toNat := by omega
    rw [byteAt, hbytes, List.getD_eq_getElem?_getD, List.getElem?_append_right (by omega),
      List.getElem?_replicate_of_lt hin]
    rfl
  · rintro ⟨last, hpos, hle, hbytes⟩
    refine ⟨b.bytes.take (n - last.toNat), Pkcs7.unpad_eq_some_iff.mpr ⟨last, hpos, hle, ?_⟩⟩
    have hcopies : b.bytes.drop (n - last.toNat) = List.replicate last.toNat last := by
      rw [List.eq_replicate_iff, List.length_drop, b.size_eq]
      refine ⟨by omega, ?_⟩
      intro x hx
      rcases List.getElem_of_mem hx with ⟨k, hk, rfl⟩
      rw [List.length_drop, b.size_eq] at hk
      have hbyte := hbytes (n - last.toNat + k) (by omega) (by omega)
      rw [byteAt_eq_getElem b (by rw [b.size_eq]; omega)] at hbyte
      rw [List.getElem_drop]
      exact hbyte
    rw [← hcopies, List.take_append_drop]

/-- A block that ends in 1 is padded, whatever stands before. -/
theorem padded_of_one (hn : 0 < n) {b : Buffer n} (hlast : byteAt b (n - 1) = 1) :
    Padded b := by
  refine (padded_iff b).mpr ⟨1, by decide, hn, ?_⟩
  intro j hj hfrom
  have hone : (1 : UInt8).toNat = 1 := rfl
  have hsame : j = n - 1 := by omega
  rw [hsame, hlast]

/-- The last byte of a padded block is the number of padding bytes. -/
theorem Padded.byteAt_eq {b : Buffer n} (hpadded : Padded b) :
    0 < (byteAt b (n - 1)).toNat ∧ ∀ j < n, n - (byteAt b (n - 1)).toNat ≤ j →
      byteAt b j = byteAt b (n - 1) := by
  rcases (padded_iff b).mp hpadded with ⟨last, hpos, hle, hbytes⟩
  have hlast : byteAt b (n - 1) = last := hbytes (n - 1) (by omega) (by omega)
  rw [hlast]
  exact ⟨hpos, hbytes⟩

/-- If two blocks, whatever they are combined with, both end in padding or both do not, then
they end in the same byte: otherwise they can be combined so that one ends in a single
padding byte and the other in a number that the byte before it does not repeat. -/
theorem last_eq_of_padded {a b : Buffer n} (hn : 2 ≤ n)
    (hsame : ∀ chain, Padded (xorBlock a chain) ↔ Padded (xorBlock b chain)) :
    byteAt a (n - 1) = byteAt b (n - 1) := by
  by_contra hlast
  obtain ⟨q, hq⟩ : ∃ q, q = byteAt b (n - 1) ^^^ byteAt a (n - 1) ^^^ 1 := ⟨_, rfl⟩
  obtain ⟨chain, hchain⟩ : ∃ chain : Buffer n, chain = tabulate n fun j =>
      if j = n - 1 then byteAt a j ^^^ 1 else byteAt b j ^^^ (q + 1) := ⟨_, rfl⟩
  have hone : byteAt (xorBlock a chain) (n - 1) = 1 := by
    rw [byteAt_xorBlock, hchain, byteAt_tabulate _ (by omega), if_pos rfl, ← UInt8.xor_assoc,
      UInt8.xor_self, UInt8.zero_xor]
  have hend : byteAt (xorBlock b chain) (n - 1) = q := by
    rw [byteAt_xorBlock, hchain, byteAt_tabulate _ (by omega), if_pos rfl, hq, UInt8.xor_assoc]
  have hbefore : byteAt (xorBlock b chain) (n - 2) = q + 1 := by
    rw [byteAt_xorBlock, hchain, byteAt_tabulate _ (by omega), if_neg (by omega),
      ← UInt8.xor_assoc, UInt8.xor_self, UInt8.zero_xor]
  rcases ((hsame chain).mp (padded_of_one (by omega) hone)).byteAt_eq with ⟨hpos, hbytes⟩
  rw [hend] at hpos hbytes
  by_cases hshort : q.toNat = 1
  · have hqone : q = 1 := UInt8.toNat.inj hshort
    apply hlast
    rw [hqone] at hq
    have hcancel := congrArg (fun x => byteAt b (n - 1) ^^^ (x ^^^ 1)) hq
    simp only [UInt8.xor_assoc, UInt8.xor_self, UInt8.xor_zero] at hcancel
    rw [hcancel, ← UInt8.xor_assoc, UInt8.xor_self, UInt8.zero_xor]
  · have hrepeat := hbytes (n - 2) (by omega) (by omega)
    rw [hbefore] at hrepeat
    exact absurd hrepeat (by simp)

/-- Whether a block ends in padding, for everything it may be combined with, tells the whole
block. -/
theorem padded_xorBlock_iff {a b : Buffer n} (hn : 2 ≤ n) (hmax : n ≤ 255) :
    (∀ chain, Padded (xorBlock a chain) ↔ Padded (xorBlock b chain)) ↔ a = b := by
  constructor
  · intro hsame
    have hlast := last_eq_of_padded hn hsame
    apply ext_byteAt
    intro k hk
    -- Padding that starts at the byte in question is wrong for the other block.
    obtain ⟨p, hp⟩ : ∃ p, p = UInt8.ofNat (n - k) := ⟨_, rfl⟩
    have hcount : p.toNat = n - k := by
      rw [hp, UInt8.toNat_ofNat']
      omega
    obtain ⟨chain, hchain⟩ : ∃ chain : Buffer n, chain = tabulate n fun j =>
        byteAt a j ^^^ p := ⟨_, rfl⟩
    have hcombined : ∀ j < n, byteAt (xorBlock a chain) j = p := by
      intro j hj
      rw [byteAt_xorBlock, hchain, byteAt_tabulate _ hj, ← UInt8.xor_assoc, UInt8.xor_self,
        UInt8.zero_xor]
    have hpadded : Padded (xorBlock a chain) :=
      (padded_iff _).mpr ⟨p, by omega, by omega, fun j hj _ => hcombined j hj⟩
    have hother : ∀ j < n, byteAt (xorBlock b chain) j = byteAt b j ^^^ (byteAt a j ^^^ p) := by
      intro j hj
      rw [byteAt_xorBlock, hchain, byteAt_tabulate _ hj]
    have hend : byteAt (xorBlock b chain) (n - 1) = p := by
      rw [hother _ (by omega), hlast, ← UInt8.xor_assoc, UInt8.xor_self, UInt8.zero_xor]
    rcases ((hsame chain).mp hpadded).byteAt_eq with ⟨_, hbytes⟩
    rw [hend] at hbytes
    have hbyte := hbytes k hk (by omega)
    rw [hother k hk] at hbyte
    have hcancel := congrArg (fun x => byteAt b k ^^^ (x ^^^ p)) hbyte
    simp only [UInt8.xor_assoc, UInt8.xor_self, UInt8.xor_zero] at hcancel
    rw [← hcancel, ← UInt8.xor_assoc, UInt8.xor_self, UInt8.zero_xor]
  · rintro rfl chain
    exact Iff.rfl

end AutomotiveSecurity
