import AutomotiveSecurity.Foundations.CString

/-!
# Hexadecimal strings

A byte string is written with two lower-case digits a byte; a string of digits is read
in either case.

Main results:

- Theorem {lit}`decodeHex_isSome_iff`: the strings that can be read are those of an even
  number of digits.
- Theorem {lit}`map_foldCase_eq_lowerHex_iff`: a string folds to the digits of a byte string
  exactly if it reads as that byte string.
-/

namespace AutomotiveSecurity.Hex

open Memory

/-! ## Digits -/

/-- The lower-case digit of a value below 16. -/
def hexDigit (v : Nat) : UInt8 :=
  UInt8.ofNat (if v < 10 then 0x30 + v else 0x57 + v)

/-- The value of a digit in either case. -/
def digitValue (c : UInt8) : Option Nat :=
  if 0x30 ≤ c.toNat ∧ c.toNat ≤ 0x39 then some (c.toNat - 0x30)
  else if 0x41 ≤ c.toNat ∧ c.toNat ≤ 0x46 then some (c.toNat - 0x37)
  else if 0x61 ≤ c.toNat ∧ c.toNat ≤ 0x66 then some (c.toNat - 0x57)
  else none

/-- A lower-case hexadecimal digit. -/
def IsLowerDigit (c : UInt8) : Prop :=
  (0x30 ≤ c ∧ c ≤ 0x39) ∨ (0x61 ≤ c ∧ c ≤ 0x66)

theorem toNat_hexDigit {v : Nat} (hv : v < 16) :
    (hexDigit v).toNat = if v < 10 then 0x30 + v else 0x57 + v := by
  rw [hexDigit, UInt8.toNat_ofNat']
  split <;> omega

theorem isLowerDigit_hexDigit {v : Nat} (hv : v < 16) : IsLowerDigit (hexDigit v) := by
  unfold IsLowerDigit
  simp only [UInt8.le_iff_toNat_le, toNat_hexDigit hv, UInt8.reduceToNat]
  split <;> omega

theorem digitValue_lt {c : UInt8} {v : Nat} (hc : digitValue c = some v) : v < 16 := by
  unfold digitValue at hc
  split at hc
  · cases hc
    omega
  · split at hc
    · cases hc
      omega
    · split at hc
      · cases hc
        omega
      · cases hc

/-- A byte folds to a lower-case digit exactly if it is that digit in either case. -/
theorem foldCase_eq_hexDigit_iff {c : UInt8} {v : Nat} (hv : v < 16) :
    foldCase c = hexDigit v ↔ digitValue c = some v := by
  rw [← UInt8.toNat_inj, toNat_foldCase, toNat_hexDigit hv, digitValue]
  have hc : c.toNat < 256 := c.toNat_lt
  grind

/-- A lower-case digit folds to itself. -/
theorem foldCase_hexDigit {v : Nat} (hv : v < 16) : foldCase (hexDigit v) = hexDigit v := by
  rw [← UInt8.toNat_inj, toNat_foldCase, toNat_hexDigit hv]
  split <;> split <;> omega

/-! ## Strings -/

/-- The two digits of a byte. -/
def byteDigits (b : UInt8) : List UInt8 :=
  [hexDigit (b.toNat / 16), hexDigit (b.toNat % 16)]

/-- A byte string in lower-case digits. -/
def lowerHex : List UInt8 → List UInt8
  | [] => []
  | b :: bs => byteDigits b ++ lowerHex bs

/-- The byte string that a string of digits stands for. -/
def decodeHex : List UInt8 → Option (List UInt8)
  | [] => some []
  | [_] => none
  | hi :: lo :: rest => do
      let high ← digitValue hi
      let low ← digitValue lo
      let bs ← decodeHex rest
      return UInt8.ofNat (16 * high + low) :: bs

@[simp]
theorem length_lowerHex (bs : List UInt8) : (lowerHex bs).length = 2 * bs.length := by
  induction bs with
  | nil => rfl
  | cons b bs ih =>
      rw [lowerHex, List.length_append, ih, List.length_cons]
      simp only [byteDigits, List.length_cons, List.length_nil]
      omega

/-- The two halves of a byte are values of digits. -/
theorem halves_lt (b : UInt8) : b.toNat / 16 < 16 ∧ b.toNat % 16 < 16 := by
  have hb : b.toNat < 256 := b.toNat_lt
  omega

theorem isLowerDigit_of_mem {bs : List UInt8} {c : UInt8} (hc : c ∈ lowerHex bs) :
    IsLowerDigit c := by
  induction bs with
  | nil => cases hc
  | cons b bs ih =>
      rcases halves_lt b with ⟨hhigh, hlow⟩
      rw [lowerHex, List.mem_append] at hc
      rcases hc with hbyte | hrest
      · simp only [byteDigits, List.mem_cons, List.not_mem_nil, or_false] at hbyte
        rcases hbyte with rfl | rfl
        · exact isLowerDigit_hexDigit hhigh
        · exact isLowerDigit_hexDigit hlow
      · exact ih hrest

/-- No digit is a NUL. -/
theorem zero_not_mem_lowerHex (bs : List UInt8) : 0 ∉ lowerHex bs := by
  intro hmem
  have hdigit : IsLowerDigit 0 := isLowerDigit_of_mem hmem
  revert hdigit
  unfold IsLowerDigit
  decide

/-- Reading takes two digits a byte. -/
theorem length_of_decodeHex {s bs : List UInt8} (hs : decodeHex s = some bs) :
    s.length = 2 * bs.length := by
  induction s using decodeHex.induct generalizing bs with
  | case1 =>
      cases hs
      rfl
  | case2 c => cases hs
  | case3 hi lo rest ih =>
      simp only [decodeHex, Option.bind_eq_bind, Option.bind_eq_some_iff] at hs
      rcases hs with ⟨high, _, low, _, tail, htail, hbs⟩
      cases hbs
      rw [List.length_cons, List.length_cons, ih htail, List.length_cons]
      omega

theorem decodeHex_isSome_iff {s : List UInt8} :
    (decodeHex s).isSome ↔ 2 ∣ s.length ∧ ∀ c ∈ s, (digitValue c).isSome := by
  induction s using decodeHex.induct with
  | case1 => simp [decodeHex]
  | case2 c => simp [decodeHex]
  | case3 hi lo rest ih =>
      have hlength : 2 ∣ (hi :: lo :: rest).length ↔ 2 ∣ rest.length := by
        rw [List.length_cons, List.length_cons]
        omega
      have hdecode : (decodeHex (hi :: lo :: rest)).isSome ↔
          (digitValue hi).isSome ∧ (digitValue lo).isSome ∧ (decodeHex rest).isSome := by
        simp only [decodeHex]
        cases digitValue hi <;> cases digitValue lo <;> cases decodeHex rest <;> simp
      rw [hdecode, ih, hlength, List.forall_mem_cons, List.forall_mem_cons]
      constructor
      · rintro ⟨hhi, hlo, heven, hrest⟩
        exact ⟨heven, hhi, hlo, hrest⟩
      · rintro ⟨heven, hhi, hlo, hrest⟩
        exact ⟨hhi, hlo, heven, hrest⟩

/-- A byte is put together from the values of its digits. -/
theorem ofNat_eq_iff {high low : Nat} (hhigh : high < 16) (hlow : low < 16) {b : UInt8} :
    UInt8.ofNat (16 * high + low) = b ↔ high = b.toNat / 16 ∧ low = b.toNat % 16 := by
  rw [← UInt8.toNat_inj, UInt8.toNat_ofNat']
  have hb : b.toNat < 256 := b.toNat_lt
  omega

/-- The induction is on the byte string, and each byte takes two characters off the
other one. -/
theorem map_foldCase_eq_lowerHex_iff {s bs : List UInt8} :
    s.map foldCase = lowerHex bs ↔ decodeHex s = some bs := by
  induction bs generalizing s with
  | nil =>
      rw [lowerHex, List.map_eq_nil_iff]
      constructor
      · rintro rfl
        rfl
      · intro hs
        have hlength := length_of_decodeHex hs
        exact List.length_eq_zero_iff.mp hlength
  | cons b bs ih =>
      rcases halves_lt b with ⟨hhigh, hlow⟩
      match s with
      | [] => simp [lowerHex, byteDigits, decodeHex]
      | [c] => simp [lowerHex, byteDigits, decodeHex]
      | hi :: lo :: rest =>
          have hfold : (hi :: lo :: rest).map foldCase = lowerHex (b :: bs) ↔
              digitValue hi = some (b.toNat / 16) ∧ digitValue lo = some (b.toNat % 16) ∧
                decodeHex rest = some bs := by
            rw [← ih, ← foldCase_eq_hexDigit_iff hhigh, ← foldCase_eq_hexDigit_iff hlow]
            simp [lowerHex, byteDigits]
          rw [hfold]
          simp only [decodeHex, Option.bind_eq_bind, Option.bind_eq_some_iff]
          constructor
          · rintro ⟨hhi, hlo, hrest⟩
            refine ⟨_, hhi, _, hlo, _, hrest, ?_⟩
            rw [(ofNat_eq_iff hhigh hlow).mpr ⟨rfl, rfl⟩]
            rfl
          · rintro ⟨high, hhi, low, hlo, tail, hrest, hbyte⟩
            rcases List.cons.inj (Option.some.inj hbyte) with ⟨hb, rfl⟩
            rcases (ofNat_eq_iff (digitValue_lt hhi) (digitValue_lt hlo)).mp hb with ⟨rfl, rfl⟩
            exact ⟨hhi, hlo, hrest⟩

/-- Lower-case digits stay as they are. -/
theorem map_foldCase_lowerHex (bs : List UInt8) :
    (lowerHex bs).map foldCase = lowerHex bs := by
  induction bs with
  | nil => rfl
  | cons b bs ih =>
      rcases halves_lt b with ⟨hhigh, hlow⟩
      rw [lowerHex, List.map_append, ih]
      simp only [byteDigits, List.map_cons, List.map_nil, foldCase_hexDigit hhigh,
        foldCase_hexDigit hlow]

/-- What is written is read back. -/
theorem decodeHex_lowerHex (bs : List UInt8) : decodeHex (lowerHex bs) = some bs :=
  map_foldCase_eq_lowerHex_iff.mp (map_foldCase_lowerHex bs)

end AutomotiveSecurity.Hex
