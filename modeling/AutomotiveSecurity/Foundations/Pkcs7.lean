import Mathlib

/-!
# PKCS#7 padding

A string is padded to a multiple of the block size by bytes that all hold the number
of bytes added, a full block if the length already is a multiple.

Main results:

- Theorems {lit}`dvd_add_padLength` and {lit}`length_pad_le_of_dvd`: the padded length is the
  least multiple of the block size above the length.
- Theorem {lit}`pad_split`: padding changes only the last, incomplete block.
- Theorem {lit}`unpad_pad`: padding is removed again.
- Theorem {lit}`unpad_eq_some_iff_pad`: on whole blocks nothing else is removed.

Current gaps:

- Block sizes above 255 have no padding byte.
-/

namespace AutomotiveSecurity.Pkcs7

/-- How many bytes are added to a string of the given length. -/
def padLength (block len : Nat) : Nat :=
  block - len % block

/-- The string with its padding. -/
def pad (block : Nat) (data : List UInt8) : List UInt8 :=
  data ++ List.replicate (padLength block data.length)
    (UInt8.ofNat (padLength block data.length))

/-- The string without its padding, if it ends in one. -/
def unpad (block : Nat) (data : List UInt8) : Option (List UInt8) :=
  match data.getLast? with
  | none => none
  | some last =>
      if 0 < last.toNat ∧ last.toNat ≤ block ∧
          data.drop (data.length - last.toNat) = List.replicate last.toNat last then
        some (data.take (data.length - last.toNat))
      else none

variable {block : Nat}

theorem padLength_pos (hblock : 0 < block) (len : Nat) : 0 < padLength block len := by
  have hmod : len % block < block := Nat.mod_lt len hblock
  unfold padLength
  omega

theorem padLength_le (block len : Nat) : padLength block len ≤ block :=
  Nat.sub_le _ _

@[simp]
theorem length_pad (block : Nat) (data : List UInt8) :
    (pad block data).length = data.length + padLength block data.length := by
  simp [pad]

/-- The padded length in whole blocks. -/
theorem add_padLength (hblock : 0 < block) (len : Nat) :
    len + padLength block len = block * (len / block + 1) := by
  have hmod : len % block < block := Nat.mod_lt len hblock
  have hdiv : block * (len / block) + len % block = len := Nat.div_add_mod len block
  rw [Nat.mul_add, Nat.mul_one]
  unfold padLength
  omega

theorem dvd_add_padLength (hblock : 0 < block) (len : Nat) :
    block ∣ len + padLength block len := by
  rw [add_padLength hblock]
  exact Nat.dvd_mul_right _ _

/-- No smaller multiple of the block size lies above the length. -/
theorem length_pad_le_of_dvd (hblock : 0 < block) {len k : Nat} (hk : block ∣ k)
    (hlt : len < k) : len + padLength block len ≤ k := by
  rcases hk with ⟨q, rfl⟩
  rw [add_padLength hblock]
  apply Nat.mul_le_mul_left
  exact (Nat.div_lt_iff_lt_mul hblock).mpr (by rwa [Nat.mul_comm])

/-- Padding changes only what follows the complete blocks. -/
theorem pad_split {front rest : List UInt8} (hfront : block ∣ front.length) :
    pad block (front ++ rest) = front ++ pad block rest := by
  rcases hfront with ⟨q, hq⟩
  have hpad : padLength block (front ++ rest).length = padLength block rest.length := by
    unfold padLength
    rw [List.length_append, hq, Nat.mul_add_mod]
  rw [pad, pad, hpad, List.append_assoc]

/-- The last byte of a padded string is the number of bytes added. -/
theorem getLast?_pad (hblock : 0 < block) (data : List UInt8) :
    (pad block data).getLast? = some (UInt8.ofNat (padLength block data.length)) := by
  have hpos : padLength block data.length ≠ 0 :=
    Nat.pos_iff_ne_zero.mp (padLength_pos hblock data.length)
  rw [pad, List.getLast?_append, List.getLast?_replicate, if_neg hpos]
  rfl

/-- The padding byte holds the number of bytes added. -/
theorem toNat_ofNat_padLength (hmax : block ≤ 255) (len : Nat) :
    (UInt8.ofNat (padLength block len)).toNat = padLength block len := by
  have hle : padLength block len ≤ block := padLength_le block len
  rw [UInt8.toNat_ofNat']
  omega

theorem unpad_pad (hblock : 0 < block) (hmax : block ≤ 255) (data : List UInt8) :
    unpad block (pad block data) = some data := by
  have hlast : (UInt8.ofNat (padLength block data.length)).toNat =
      padLength block data.length := toNat_ofNat_padLength hmax data.length
  have hlen : (pad block data).length - padLength block data.length = data.length := by
    rw [length_pad, Nat.add_sub_cancel]
  unfold unpad
  rw [getLast?_pad hblock]
  simp only [hlast, hlen]
  rw [if_pos]
  · simp [pad]
  · exact ⟨padLength_pos hblock _, padLength_le block _, by simp [pad]⟩

/-! ## What is taken for padding -/

/-- A string has padding exactly if it ends in so many copies of its last byte. -/
theorem unpad_eq_some_iff {data text : List UInt8} :
    unpad block data = some text ↔
      ∃ last : UInt8, 0 < last.toNat ∧ last.toNat ≤ block ∧
        data = text ++ List.replicate last.toNat last := by
  constructor
  · intro hunpad
    unfold unpad at hunpad
    cases hlast : data.getLast? with
    | none => simp [hlast] at hunpad
    | some last =>
        simp only [hlast] at hunpad
        split at hunpad
        · rename_i hpadding
          rcases hpadding with ⟨hpos, hmax, hcopies⟩
          refine ⟨last, hpos, hmax, ?_⟩
          rw [← Option.some.inj hunpad, ← hcopies, List.take_append_drop]
        · exact absurd hunpad (by simp)
  · rintro ⟨last, hpos, hmax, rfl⟩
    have hnonzero : last.toNat ≠ 0 := Nat.pos_iff_ne_zero.mp hpos
    have hlast : (text ++ List.replicate last.toNat last).getLast? = some last := by
      rw [List.getLast?_append, List.getLast?_replicate, if_neg hnonzero]
      rfl
    have hlen : (text ++ List.replicate last.toNat last).length - last.toNat = text.length := by
      rw [List.length_append, List.length_replicate, Nat.add_sub_cancel]
    unfold unpad
    simp only [hlast, hlen]
    rw [if_pos ⟨hpos, hmax, List.drop_left⟩, List.take_left]

/-- In whole blocks the padding that is removed is the one that is added. -/
theorem unpad_eq_some_iff_pad (hblock : 0 < block) (hmax : block ≤ 255) {data text : List UInt8}
    (hwhole : block ∣ data.length) : unpad block data = some text ↔ data = pad block text := by
  constructor
  · intro hunpad
    rcases unpad_eq_some_iff.mp hunpad with ⟨last, hpos, hle, rfl⟩
    have hsum : text.length + last.toNat = block * (text.length / block + 1) := by
      rcases hwhole with ⟨q, hq⟩
      rw [List.length_append, List.length_replicate] at hq
      -- Only one multiple of the block size lies so close above the length.
      have hlow : text.length / block < q := by
        rw [Nat.div_lt_iff_lt_mul hblock, Nat.mul_comm, ← hq]
        omega
      have hhigh : q ≤ text.length / block + 1 := by
        by_contra hlarge
        have hmul : block * (text.length / block + 1 + 1) ≤ block * q :=
          Nat.mul_le_mul_left block (by omega)
        have hmod : text.length % block < block := Nat.mod_lt _ hblock
        have hdiv : block * (text.length / block) + text.length % block = text.length :=
          Nat.div_add_mod _ _
        rw [← hq, Nat.mul_succ, Nat.mul_succ] at hmul
        omega
      rw [hq, show q = text.length / block + 1 by omega]
    have hcount : last.toNat = padLength block text.length := by
      have hadd := add_padLength hblock text.length
      omega
    rw [pad, ← hcount]
    simp
  · rintro rfl
    exact unpad_pad hblock hmax text

/-- The padding stands in the last block. -/
theorem unpad_append {front rest : List UInt8} (hrest : block ≤ rest.length) :
    unpad block (front ++ rest) = (unpad block rest).map (front ++ ·) := by
  apply Option.ext
  intro text
  rw [unpad_eq_some_iff, Option.map_eq_some_iff]
  constructor
  · rintro ⟨last, hpos, hle, hsame⟩
    have hlen := congrArg List.length hsame
    rw [List.length_append, List.length_append, List.length_replicate] at hlen
    rcases List.append_eq_append_iff.mp hsame with ⟨mid, htext, hpadded⟩ | ⟨mid, hfront, hpadded⟩
    · exact ⟨mid, unpad_eq_some_iff.mpr ⟨last, hpos, hle, hpadded⟩, htext.symm⟩
    · have hmid := congrArg List.length hpadded
      rw [List.length_append, List.length_replicate] at hmid
      have hnil : mid = [] := List.length_eq_zero_iff.mp (by omega)
      subst hnil
      rw [List.nil_append] at hpadded
      rw [List.append_nil] at hfront
      exact ⟨[], unpad_eq_some_iff.mpr ⟨last, hpos, hle, hpadded.symm⟩,
        (List.append_nil front).trans hfront⟩
  · rintro ⟨text', hunpad, rfl⟩
    rcases unpad_eq_some_iff.mp hunpad with ⟨last, hpos, hle, rfl⟩
    exact ⟨last, hpos, hle, (List.append_assoc _ _ _).symm⟩

end AutomotiveSecurity.Pkcs7
