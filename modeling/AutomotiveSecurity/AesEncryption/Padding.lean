import AutomotiveSecurity.Foundations.Memory
import AutomotiveSecurity.Foundations.Pkcs7

/-!
# The padding functions of {lit}`aes_cbc.c`

{lit}`add_pkcs7_padding` extends the data of a buffer in place and
{lit}`remove_pkcs7_padding` says where the data ends.  The second one looks at the last
byte only.

Main results:

- Theorem {lit}`addPkcs7Padding_eq`: the first function writes the PKCS#7 padding of the data.
- Theorem {lit}`pkcs7_padding_round_trip`: padding is placed, bounded and removed again
  for every length and every block size up to 16.
- Theorem {lit}`removePkcs7Padding_exact_iff`: on which buffers the second function
  accepts correct padding and nothing else.

Current gaps:

- A {lit}`block_size` of 0 is a division by zero in C; the results exclude it.
-/

namespace AutomotiveSecurity.AesCbc

open Memory

/-! ## The two functions -/

/-- The remaining rounds of the loop in {lit}`add_pkcs7_padding`. -/
def paddingLoop {n : Nat} (len padding : UInt64) : Nat → UInt64 → Buffer n →
    Except Fault (Buffer n)
  | 0, _, data => .ok data
  | rounds + 1, i, data => do
      let data ← data.store (len + i).toNat [padding.toUInt8]
      paddingLoop len padding rounds (i + 1) data

/-- {lit}`add_pkcs7_padding`: the buffer and the padded length. -/
def addPkcs7Padding {n : Nat} (data : Buffer n) (len blockSize : UInt64) :
    Except Fault (Buffer n × UInt64) := do
  let padding := blockSize - len % blockSize
  let data ← paddingLoop len padding padding.toNat 0 data
  return (data, len + padding)

/-- {lit}`remove_pkcs7_padding`. -/
def removePkcs7Padding {n : Nat} (data : Buffer n) (len : UInt64) : Except Fault UInt64 := do
  if len = 0 then
    return 0
  let padding ← data.get (len - 1).toNat
  if padding > 16 ∨ padding = 0 then
    return len
  return len - padding.toUInt64

/-! ## Adding padding -/

/-- The loop fills the addressed range with the padding byte. -/
theorem paddingLoop_eq {n : Nat} {len padding : UInt64} (rounds : Nat) (i : UInt64)
    (data : Buffer n) (hsize : len.toNat + i.toNat + rounds < 2 ^ 64)
    (hroom : len.toNat + i.toNat + (List.replicate rounds padding.toUInt8).length ≤ n) :
    paddingLoop len padding rounds i data =
      .ok (data.overwrite (len.toNat + i.toNat)
        (List.replicate rounds padding.toUInt8) hroom) := by
  induction rounds generalizing i data with
  | zero =>
      rw [paddingLoop]
      simp only [List.replicate_zero, Buffer.overwrite_nil]
  | succ rounds ih =>
      have hindex : (len + i).toNat = len.toNat + i.toNat := by
        rw [UInt64.toNat_add]
        omega
      have hnext : (i + 1).toNat = i.toNat + 1 := by
        rw [UInt64.toNat_add, UInt64.toNat_one]
        omega
      rw [List.length_replicate] at hroom
      have hbyte : (len + i).toNat + [padding.toUInt8].length ≤ n := by
        rw [hindex, List.length_singleton]
        omega
      rw [paddingLoop, store_of_le data hbyte]
      simp only [bind, Except.bind]
      rw [ih (i + 1) _ (by omega) (by rw [List.length_replicate]; omega)]
      congr 1
      -- The byte of this round and the bytes of the later ones are adjacent.
      have hjoin := data.overwrite_overwrite [padding.toUInt8]
        (List.replicate rounds padding.toUInt8) hbyte
        (by simp only [List.length_singleton, List.length_replicate]; omega)
        (by simp only [List.length_append, List.length_singleton, List.length_replicate]; omega)
      simp only [hindex, List.length_singleton, List.singleton_append] at hjoin
      simpa only [hnext, hindex, List.replicate_succ, Nat.add_assoc] using hjoin

/-- The padding that the function computes in {lit}`size_t`. -/
theorem padding_toNat {len blockSize : UInt64} (hpos : 0 < blockSize.toNat) :
    (blockSize - len % blockSize).toNat = Pkcs7.padLength blockSize.toNat len.toNat := by
  have hmod : len.toNat % blockSize.toNat < blockSize.toNat := Nat.mod_lt _ hpos
  have hle : len % blockSize ≤ blockSize := by
    rw [UInt64.le_iff_toNat_le, UInt64.toNat_mod]
    omega
  rw [UInt64.toNat_sub_of_le _ _ hle, UInt64.toNat_mod, Pkcs7.padLength]

/-- With room in the buffer and in {lit}`size_t`, {lit}`add_pkcs7_padding` puts the padding
behind the data, leaves everything else alone and returns the padded length. -/
theorem addPkcs7Padding_eq {n : Nat} (data : Buffer n) (len blockSize : UInt64)
    (hpos : 0 < blockSize.toNat)
    (hsize : len.toNat + Pkcs7.padLength blockSize.toNat len.toNat < 2 ^ 64)
    (hroom : len.toNat + Pkcs7.padLength blockSize.toNat len.toNat ≤ n) :
    ∃ (padded : Buffer n) (paddedLen : UInt64),
      addPkcs7Padding data len blockSize = .ok (padded, paddedLen) ∧
        paddedLen.toNat = len.toNat + Pkcs7.padLength blockSize.toNat len.toNat ∧
        padded.bytes.take paddedLen.toNat =
          Pkcs7.pad blockSize.toNat (data.bytes.take len.toNat) ∧
        padded.bytes.drop paddedLen.toNat = data.bytes.drop paddedLen.toNat := by
  have hpadding : (blockSize - len % blockSize).toNat =
      Pkcs7.padLength blockSize.toNat len.toNat := padding_toNat hpos
  have hlen : (data.bytes.take len.toNat).length = len.toNat := data.length_take (by omega)
  have hbytes : List.replicate (blockSize - len % blockSize).toNat
      (blockSize - len % blockSize).toUInt8 =
        List.replicate (Pkcs7.padLength blockSize.toNat len.toNat)
          (UInt8.ofNat (Pkcs7.padLength blockSize.toNat len.toNat)) := by
    rw [← UInt8.ofNat_uInt64ToNat, hpadding]
  have hreturn : (len + (blockSize - len % blockSize)).toNat =
      len.toNat + (List.replicate (blockSize - len % blockSize).toNat
        (blockSize - len % blockSize).toUInt8).length := by
    rw [UInt64.toNat_add, List.length_replicate, hpadding, Nat.mod_eq_of_lt hsize]
  have hroom' : len.toNat + (List.replicate (blockSize - len % blockSize).toNat
      (blockSize - len % blockSize).toUInt8).length ≤ n := by
    rw [List.length_replicate, hpadding]
    exact hroom
  have hfill : paddingLoop len (blockSize - len % blockSize)
      (blockSize - len % blockSize).toNat 0 data =
        .ok (data.overwrite len.toNat _ hroom') :=
    paddingLoop_eq _ 0 data (by rw [hpadding]; exact hsize) hroom'
  refine ⟨data.overwrite len.toNat _ hroom', len + (blockSize - len % blockSize), ?_, ?_, ?_, ?_⟩
  · rw [addPkcs7Padding, hfill]
    rfl
  · rw [hreturn, List.length_replicate, hpadding]
  · rw [hreturn, data.take_overwrite_end hroom', hbytes, Pkcs7.pad, hlen]
  · rw [hreturn, data.drop_overwrite_end hroom']

/-! ## Removing padding -/

/-- The last byte of the data decides what {lit}`remove_pkcs7_padding` returns. -/
theorem removePkcs7Padding_eq {n : Nat} {data : Buffer n} {len : UInt64} {last : UInt8}
    (hpos : 0 < len.toNat) (hvalid : len.toNat ≤ n)
    (hlast : (data.bytes.take len.toNat).getLast? = some last) :
    removePkcs7Padding data len =
      .ok (if last > 16 ∨ last = 0 then len else len - last.toUInt64) := by
  have hne : ¬len = 0 := by
    rintro rfl
    exact absurd hpos (by decide)
  have hprev : (len - 1).toNat = len.toNat - 1 := by
    have hle : (1 : UInt64) ≤ len := by
      rw [UInt64.le_iff_toNat_le, UInt64.toNat_one]
      omega
    rw [UInt64.toNat_sub_of_le _ _ hle, UInt64.toNat_one]
  have hlt : len.toNat - 1 < n := by omega
  have hget : data.get (len - 1).toNat = .ok last := by
    rw [hprev, Buffer.get, dif_pos hlt]
    congr 1
    rw [List.getLast?_take, if_neg (by omega), List.getElem?_eq_getElem (by simpa using hlt)]
      at hlast
    simpa using hlast
  rw [removePkcs7Padding, if_neg hne, hget]
  by_cases hkeep : last > 16 ∨ last = 0
  · simp only [bind, Except.bind, if_pos hkeep]
    rfl
  · simp only [bind, Except.bind, if_neg hkeep]
    rfl

/-- A padding byte between 1 and 16 is subtracted from the length. -/
theorem sub_toUInt64_toNat {len : UInt64} {last : UInt8} (hle : last.toNat ≤ len.toNat) :
    (len - last.toUInt64).toNat = len.toNat - last.toNat := by
  have hle' : last.toUInt64 ≤ len := by
    rw [UInt64.le_iff_toNat_le, UInt8.toNat_toUInt64]
    exact hle
  rw [UInt64.toNat_sub_of_le _ _ hle', UInt8.toNat_toUInt64]

/-- Behind padding for a block size up to 16 the length of the data is found again. -/
theorem removePkcs7Padding_of_pad {n block : Nat} {data : Buffer n} {len : UInt64}
    {front : List UInt8} (hblock : 0 < block) (hmax : block ≤ 16) (hvalid : len.toNat ≤ n)
    (hpad : data.bytes.take len.toNat = Pkcs7.pad block front) :
    ∃ m, removePkcs7Padding data len = .ok m ∧ m.toNat = front.length := by
  have hpos : 0 < Pkcs7.padLength block front.length := Pkcs7.padLength_pos hblock _
  have hle : Pkcs7.padLength block front.length ≤ block := Pkcs7.padLength_le block _
  have hbyte : (UInt8.ofNat (Pkcs7.padLength block front.length)).toNat =
      Pkcs7.padLength block front.length := Pkcs7.toNat_ofNat_padLength (by omega) _
  have hlen : len.toNat = front.length + Pkcs7.padLength block front.length := by
    have hlength := congrArg List.length hpad
    rwa [data.length_take hvalid, Pkcs7.length_pad] at hlength
  have hlast : (data.bytes.take len.toNat).getLast? =
      some (UInt8.ofNat (Pkcs7.padLength block front.length)) := by
    rw [hpad, Pkcs7.getLast?_pad hblock]
  have hremoved : ¬(UInt8.ofNat (Pkcs7.padLength block front.length) > 16 ∨
      UInt8.ofNat (Pkcs7.padLength block front.length) = 0) := by
    rw [gt_iff_lt, UInt8.lt_iff_toNat_lt, ← UInt8.toNat_inj, hbyte]
    simp only [UInt8.reduceToNat]
    omega
  refine ⟨_, removePkcs7Padding_eq (by omega) hvalid hlast, ?_⟩
  rw [if_neg hremoved, sub_toUInt64_toNat (by omega), hbyte]
  omega

/-! ## Round trip -/

/-- For every buffer content, every length and every block size from 1 to 16 that
{lit}`size_t` and the buffer have room for: the padded length is the least multiple of the
block size above the length; the data and everything behind the padded length are
unchanged; each byte between holds the number of bytes added, which a byte can hold; and
{lit}`remove_pkcs7_padding` returns the old length. -/
theorem pkcs7_padding_round_trip {n : Nat} (data : Buffer n) (len blockSize : UInt64)
    (hpos : 1 ≤ blockSize) (hmax : blockSize ≤ 16)
    (hsize : len.toNat + blockSize.toNat < 2 ^ 64)
    (hroom : blockSize.toNat * (len.toNat / blockSize.toNat + 1) ≤ n) :
    ∃ (padded : Buffer n) (paddedLen : UInt64),
      addPkcs7Padding data len blockSize = .ok (padded, paddedLen) ∧
        (blockSize.toNat ∣ paddedLen.toNat ∧ len < paddedLen ∧
          ∀ k, blockSize.toNat ∣ k → len.toNat < k → paddedLen.toNat ≤ k) ∧
        padded.bytes.take len.toNat = data.bytes.take len.toNat ∧
        padded.bytes.drop paddedLen.toNat = data.bytes.drop paddedLen.toNat ∧
        (∃ byte : UInt8, byte.toNat = paddedLen.toNat - len.toNat ∧
          ∀ i, len.toNat ≤ i → i < paddedLen.toNat → padded.bytes[i]? = some byte) ∧
        removePkcs7Padding padded paddedLen = .ok len := by
  have hblock : 0 < blockSize.toNat := by
    rw [UInt64.le_iff_toNat_le, UInt64.toNat_one] at hpos
    omega
  have hblock' : blockSize.toNat ≤ 16 := by
    rw [UInt64.le_iff_toNat_le] at hmax
    exact hmax
  have hadded : 0 < Pkcs7.padLength blockSize.toNat len.toNat := Pkcs7.padLength_pos hblock _
  have hadded' : Pkcs7.padLength blockSize.toNat len.toNat ≤ blockSize.toNat :=
    Pkcs7.padLength_le _ _
  have hwhole : len.toNat + Pkcs7.padLength blockSize.toNat len.toNat =
      blockSize.toNat * (len.toNat / blockSize.toNat + 1) := Pkcs7.add_padLength hblock _
  rcases addPkcs7Padding_eq data len blockSize hblock (by omega) (by omega) with
    ⟨padded, paddedLen, hadd, hlength, htake, hdrop⟩
  have hlen : (data.bytes.take len.toNat).length = len.toNat := data.length_take (by omega)
  refine ⟨padded, paddedLen, hadd, ⟨?_, ?_, ?_⟩, ?_, hdrop,
    ⟨UInt8.ofNat (Pkcs7.padLength blockSize.toNat len.toNat), ?_, ?_⟩, ?_⟩
  · rw [hlength]
    exact Pkcs7.dvd_add_padLength hblock _
  · rw [UInt64.lt_iff_toNat_lt]
    omega
  · intro k hk hlt
    rw [hlength]
    exact Pkcs7.length_pad_le_of_dvd hblock hk hlt
  · have hcut := congrArg (List.take len.toNat) htake
    rw [List.take_take, Nat.min_eq_left (by omega), Pkcs7.pad] at hcut
    rw [hcut]
    exact List.take_left' hlen
  · rw [Pkcs7.toNat_ofNat_padLength (by omega)]
    omega
  · intro i hle hlt
    have hat := congrArg (fun bytes => bytes[i]?) htake
    simp only [List.getElem?_take, if_pos hlt, Pkcs7.pad] at hat
    rw [List.getElem?_append_right (by omega), hlen, List.getElem?_replicate,
      if_pos (by omega)] at hat
    exact hat
  · rcases removePkcs7Padding_of_pad hblock hblock' (by omega) htake with ⟨m, hremove, hm⟩
    rw [hremove]
    congr 1
    apply UInt64.toNat.inj
    rw [hm, hlen]

/-- The demonstration's block size on a buffer of 32 bytes that holds 20. -/
theorem padding_of_twenty_bytes :
    ∃ (padded : Buffer 32) (paddedLen : UInt64),
      addPkcs7Padding (Buffer.zero 32) 20 16 = .ok (padded, paddedLen) ∧
        removePkcs7Padding padded paddedLen = .ok 20 := by
  rcases pkcs7_padding_round_trip (Buffer.zero 32) 20 16 (by decide) (by decide) (by decide)
      (by decide) with
    ⟨padded, paddedLen, hadd, _, _, _, _, hremove⟩
  exact ⟨padded, paddedLen, hadd, hremove⟩

/-! ## Malformed padding -/

/-- The first {lit}`len` bytes are exactly what {lit}`add_pkcs7_padding` with block size 16
makes of the first {lit}`m`. -/
def PaddedFrom {n : Nat} (x : Buffer n) (m len : UInt64) : Prop :=
  m ≤ len ∧ ∃ padded, addPkcs7Padding x m 16 = .ok (padded, len) ∧
    padded.bytes.take len.toNat = x.bytes.take len.toNat

/-- Correct padding is the PKCS#7 padding of the first {lit}`m` bytes. -/
theorem paddedFrom_iff {n : Nat} {x : Buffer n} {m len : UInt64} (hvalid : len.toNat ≤ n) :
    PaddedFrom x m len ↔
      m ≤ len ∧ x.bytes.take len.toNat = Pkcs7.pad 16 (x.bytes.take m.toNat) := by
  have hadded : 0 < Pkcs7.padLength 16 m.toNat := Pkcs7.padLength_pos (by decide) _
  have hadded' : Pkcs7.padLength 16 m.toNat ≤ 16 := Pkcs7.padLength_le _ _
  have hlen : (hle : m ≤ len) → (x.bytes.take m.toNat).length = m.toNat := by
    intro hle
    rw [UInt64.le_iff_toNat_le] at hle
    exact x.length_take (hle.trans hvalid)
  have hbound : len.toNat < 2 ^ 64 := len.toNat_lt
  constructor
  · rintro ⟨hle, padded, hadd, hsame⟩
    refine ⟨hle, ?_⟩
    have hle' : m.toNat ≤ len.toNat := hle
    -- The returned length cannot have wrapped around, as it is not below `m`.
    have hreturn : len = m + (16 - m % 16) := by
      rcases bind_eq_ok.mp hadd with ⟨data, _, hpair⟩
      have hsnd := congrArg Prod.snd (Except.ok.inj hpair)
      exact hsnd.symm
    have hsum : len.toNat = (m.toNat + Pkcs7.padLength 16 m.toNat) % 2 ^ 64 := by
      have hpadding : (16 - m % 16 : UInt64).toNat = Pkcs7.padLength 16 m.toNat :=
        padding_toNat (by decide)
      rw [hreturn, UInt64.toNat_add, hpadding]
    rcases addPkcs7Padding_eq x m 16 (by decide) (by simp only [UInt64.reduceToNat]; omega)
        (by simp only [UInt64.reduceToNat]; omega) with
      ⟨padded', paddedLen, hadd', _, htake, _⟩
    rw [hadd] at hadd'
    have hpair := Except.ok.inj hadd'
    have hfst : padded = padded' := congrArg Prod.fst hpair
    have hsnd : len = paddedLen := congrArg Prod.snd hpair
    subst hfst hsnd
    rw [← hsame]
    exact htake
  · rintro ⟨hle, hpad⟩
    refine ⟨hle, ?_⟩
    have hsum : len.toNat = m.toNat + Pkcs7.padLength 16 m.toNat := by
      have hlength := congrArg List.length hpad
      rwa [x.length_take hvalid, Pkcs7.length_pad, hlen hle] at hlength
    rcases addPkcs7Padding_eq x m 16 (by decide) (by simp only [UInt64.reduceToNat]; omega)
        (by simp only [UInt64.reduceToNat]; omega) with
      ⟨padded, paddedLen, hadd, hlength, htake, _⟩
    have hsame : paddedLen = len := by
      apply UInt64.toNat.inj
      rw [hlength, hsum]
      rfl
    subst hsame
    exact ⟨padded, hadd, htake.trans hpad.symm⟩

/-- Correctly padded bytes end in a number from 1 to 16, which is what they are longer
than their data. -/
theorem PaddedFrom.last {n : Nat} {x : Buffer n} {m len : UInt64} (hvalid : len.toNat ≤ n)
    (hpadded : PaddedFrom x m len) :
    m < len ∧ removePkcs7Padding x len = .ok m := by
  rcases (paddedFrom_iff hvalid).mp hpadded with ⟨hle, hpad⟩
  have hlen : (x.bytes.take m.toNat).length = m.toNat := by
    rw [UInt64.le_iff_toNat_le] at hle
    exact x.length_take (hle.trans hvalid)
  constructor
  · have hlength := congrArg List.length hpad
    rw [x.length_take hvalid, Pkcs7.length_pad, hlen] at hlength
    have hadded : 0 < Pkcs7.padLength 16 m.toNat := Pkcs7.padLength_pos (by decide) _
    rw [UInt64.lt_iff_toNat_lt]
    omega
  · rcases removePkcs7Padding_of_pad (by decide) (by decide) hvalid hpad with ⟨k, hremove, hk⟩
    have hsame : k = m := by
      apply UInt64.toNat.inj
      rw [hk, hlen]
    rw [hremove, hsame]

/-- For every buffer and every number of valid bytes: {lit}`remove_pkcs7_padding` returns at
most that number, returns less exactly for the data that {lit}`add_pkcs7_padding` has
padded, and returns the number itself when there is no such data, exactly if the buffer
is empty, its last byte is no possible number of padding bytes, or its padding is
correct. -/
theorem removePkcs7Padding_exact_iff {n : Nat} (x : Buffer n) (len : UInt64)
    (hvalid : len.toNat ≤ n) :
    (∃ m, removePkcs7Padding x len = .ok m ∧ m ≤ len ∧ (m < len ↔ PaddedFrom x m len) ∧
        ((∀ k, ¬PaddedFrom x k len) → m = len)) ↔
      len = 0 ∨
        (∃ last, x.bytes[len.toNat - 1]? = some last ∧ (last = 0 ∨ 16 < last)) ∨
        ∃ m, PaddedFrom x m len := by
  have hself : ¬PaddedFrom x len len := fun hpadded =>
    absurd (hpadded.last hvalid).1 (UInt64.lt_irrefl len)
  have hkept : removePkcs7Padding x len = .ok len →
      ∃ m, removePkcs7Padding x len = .ok m ∧ m ≤ len ∧ (m < len ↔ PaddedFrom x m len) ∧
        ((∀ k, ¬PaddedFrom x k len) → m = len) := by
    intro hremove
    exact ⟨len, hremove, UInt64.le_refl len,
      iff_of_false (UInt64.lt_irrefl len) hself, fun _ => rfl⟩
  by_cases hzero : len = 0
  · refine iff_of_true (hkept ?_) (Or.inl hzero)
    rw [removePkcs7Padding, if_pos hzero, hzero]
    rfl
  · have hpos : 0 < len.toNat := by
      rcases Nat.eq_zero_or_pos len.toNat with hnone | hsome
      · exact absurd (UInt64.toNat.inj hnone) hzero
      · exact hsome
    have hlt : len.toNat - 1 < x.bytes.length := by
      rw [x.size_eq]
      omega
    obtain ⟨last, hat⟩ : ∃ last, x.bytes[len.toNat - 1]? = some last :=
      ⟨_, List.getElem?_eq_getElem hlt⟩
    have hlast : (x.bytes.take len.toNat).getLast? = some last := by
      rw [List.getLast?_take, if_neg (by omega), hat]
      rfl
    have hremove := removePkcs7Padding_eq hpos hvalid hlast
    by_cases hkeep : last > 16 ∨ last = 0
    · rw [if_pos hkeep] at hremove
      exact iff_of_true (hkept hremove) (Or.inr (Or.inl ⟨last, hat, hkeep.symm⟩))
    · rw [if_neg hkeep] at hremove
      constructor
      · rintro ⟨m, hm, hle, hshort, _⟩
        -- A number from 1 to 16 is subtracted, so the result is another one.
        have hother : m ≠ len := by
          rintro rfl
          rw [hremove] at hm
          have hsub := Except.ok.inj hm
          have hbyte : last.toUInt64 = 0 := by
            simpa using sub_eq_self.mp hsub
          apply hkeep
          right
          apply UInt8.toNat.inj
          have hnat := congrArg UInt64.toNat hbyte
          rwa [UInt8.toNat_toUInt64] at hnat
        have hbelow : m < len := UInt64.lt_of_le_of_ne hle hother
        exact Or.inr (Or.inr ⟨m, hshort.mp hbelow⟩)
      · rintro (hnil | ⟨last', hat', hkeep'⟩ | ⟨m, hpadded⟩)
        · exact absurd hnil hzero
        · rw [hat] at hat'
          cases hat'
          exact absurd hkeep'.symm hkeep
        · rcases hpadded.last hvalid with ⟨hbelow, hm⟩
          exact ⟨m, hm, UInt64.le_of_lt hbelow, iff_of_true hbelow hpadded,
            fun hnone => absurd hpadded (hnone m)⟩

/-- A string of four bytes whose last byte claims five bytes of padding. -/
def shortPadding : Buffer 4 := ⟨[0x41, 0x42, 0x43, 0x05], rfl⟩

/-- A string of four bytes whose last byte claims two bytes of padding. -/
def brokenPadding : Buffer 4 := ⟨[0x41, 0x42, 0x43, 0x02], rfl⟩

/-- More padding is subtracted than there are bytes, and padding bytes that differ from
the last one are subtracted too. -/
theorem malformed_padding_accepted :
    (removePkcs7Padding shortPadding 4 = .ok 18446744073709551615 ∧
        ¬(18446744073709551615 : UInt64) ≤ 4) ∧
      removePkcs7Padding brokenPadding 4 = .ok 2 ∧ ¬PaddedFrom brokenPadding 2 4 := by
  refine ⟨⟨rfl, by decide⟩, rfl, ?_⟩
  rw [paddedFrom_iff (by decide)]
  decide

/-- A last byte of 17 is never taken for padding. -/
theorem large_last_byte_kept :
    ∃ m, removePkcs7Padding (⟨[0x41, 0x42, 0x43, 0x11], rfl⟩ : Buffer 4) 4 = .ok m ∧ m ≤ 4 := by
  rcases (removePkcs7Padding_exact_iff (⟨[0x41, 0x42, 0x43, 0x11], rfl⟩ : Buffer 4) 4
      (by decide)).mpr (Or.inr (Or.inl ⟨0x11, by decide, by decide⟩)) with
    ⟨m, hremove, hle, _⟩
  exact ⟨m, hremove, hle⟩

end AutomotiveSecurity.AesCbc
