import Mathlib

/-!
# Host integers as bytes

A C program that copies an integer with {lit}`memcpy` or writes a packed struct
exposes the byte representation of its host.  This module fixes that
representation for unsigned integers of any width, in either byte order.

Main results:

- Theorems {lit}`hostValue_hostBytes` and {lit}`hostBytes_hostValue`: the codec
  round-trips in both directions.
- Theorem {lit}`uint32Bytes_inj`: two 32-bit integers with the same bytes on one
  host are equal.

Current gaps:

- Only unsigned integers are covered; mixed-endian hosts are not.
-/

namespace AutomotiveSecurity.HostInteger

/-- The order in which a host stores the bytes of an integer. -/
inductive ByteOrder
  | little
  | big
deriving DecidableEq, Repr

/-! ## Little-endian digits -/

/-- The {lit}`width` low-order bytes of a number, least significant first. -/
def littleEndian : Nat → Nat → List UInt8
  | 0, _ => []
  | width + 1, value => UInt8.ofNat value :: littleEndian width (value / 256)

/-- The number whose base-256 digits are the given bytes, least significant first. -/
def ofLittleEndian : List UInt8 → Nat
  | [] => 0
  | b :: bs => b.toNat + 256 * ofLittleEndian bs

@[simp]
theorem littleEndian_length (width value : Nat) :
    (littleEndian width value).length = width := by
  induction width generalizing value with
  | zero => rfl
  | succ width ih => simp [littleEndian, ih]

/-- A byte string denotes a number below {lit}`256 ^ length`. -/
theorem ofLittleEndian_lt (bs : List UInt8) :
    ofLittleEndian bs < 256 ^ bs.length := by
  induction bs with
  | nil => simp [ofLittleEndian]
  | cons b bs ih =>
      have hb : b.toNat < 256 := b.toNat_lt
      simp only [ofLittleEndian, List.length_cons, pow_succ]
      omega

/-- Decoding the low-order bytes of a number reduces it modulo {lit}`256 ^ width`. -/
theorem ofLittleEndian_littleEndian (width value : Nat) :
    ofLittleEndian (littleEndian width value) = value % 256 ^ width := by
  induction width generalizing value with
  | zero => simp [littleEndian, ofLittleEndian, Nat.mod_one]
  | succ width ih =>
      have hdigit : (UInt8.ofNat value).toNat = value % 256 := UInt8.toNat_ofNat'
      rw [littleEndian, ofLittleEndian, ih, hdigit, Nat.pow_succ,
        Nat.mul_comm (256 ^ width) 256, Nat.mod_mul]

/-- Re-encoding the number a byte string denotes recovers the string. -/
theorem littleEndian_ofLittleEndian (bs : List UInt8) :
    littleEndian bs.length (ofLittleEndian bs) = bs := by
  induction bs with
  | nil => rfl
  | cons b bs ih =>
      have hb : b.toNat < 256 := b.toNat_lt
      have hquot : (b.toNat + 256 * ofLittleEndian bs) / 256 = ofLittleEndian bs := by
        omega
      have hdigit : UInt8.ofNat (b.toNat + 256 * ofLittleEndian bs) = b := by
        apply UInt8.toNat.inj
        rw [UInt8.toNat_ofNat']
        omega
      simp only [List.length_cons, littleEndian, ofLittleEndian, hquot, hdigit, ih]

/-! ## Either byte order -/

/-- The bytes of a {lit}`width`-byte unsigned integer in the host's order. -/
def hostBytes (order : ByteOrder) (width value : Nat) : List UInt8 :=
  match order with
  | .little => littleEndian width value
  | .big => (littleEndian width value).reverse

/-- The unsigned integer that the host reads from the given bytes. -/
def hostValue (order : ByteOrder) (bs : List UInt8) : Nat :=
  match order with
  | .little => ofLittleEndian bs
  | .big => ofLittleEndian bs.reverse

@[simp]
theorem hostBytes_length (order : ByteOrder) (width value : Nat) :
    (hostBytes order width value).length = width := by
  cases order <;> simp [hostBytes]

/-- A host reads a number below {lit}`256 ^ length` from a byte string. -/
theorem hostValue_lt (order : ByteOrder) (bs : List UInt8) :
    hostValue order bs < 256 ^ bs.length := by
  cases order with
  | little => exact ofLittleEndian_lt bs
  | big => simpa [hostValue] using ofLittleEndian_lt bs.reverse

/-- A stored integer is read back unchanged by a host of the same byte order. -/
theorem hostValue_hostBytes (order : ByteOrder) {width value : Nat}
    (hfits : value < 256 ^ width) :
    hostValue order (hostBytes order width value) = value := by
  have hround : ofLittleEndian (littleEndian width value) = value := by
    rw [ofLittleEndian_littleEndian, Nat.mod_eq_of_lt hfits]
  cases order with
  | little => exact hround
  | big => simpa [hostValue, hostBytes] using hround

/-- The integer read from a byte string is stored as the same byte string. -/
theorem hostBytes_hostValue (order : ByteOrder) (bs : List UInt8) :
    hostBytes order bs.length (hostValue order bs) = bs := by
  cases order with
  | little => exact littleEndian_ofLittleEndian bs
  | big =>
      have hrev := littleEndian_ofLittleEndian bs.reverse
      rw [List.length_reverse] at hrev
      simp [hostBytes, hostValue, hrev]

/-! ## The 32-bit case -/

/-- The four bytes of a {lit}`uint32_t` in the host's order. -/
def uint32Bytes (order : ByteOrder) (x : UInt32) : List UInt8 :=
  hostBytes order 4 x.toNat

/-- The {lit}`uint32_t` that the host reads from four bytes. -/
def uint32OfBytes (order : ByteOrder) (bs : List UInt8) : UInt32 :=
  UInt32.ofNat (hostValue order bs)

@[simp]
theorem uint32Bytes_length (order : ByteOrder) (x : UInt32) :
    (uint32Bytes order x).length = 4 :=
  hostBytes_length order 4 x.toNat

@[simp]
theorem uint32OfBytes_uint32Bytes (order : ByteOrder) (x : UInt32) :
    uint32OfBytes order (uint32Bytes order x) = x := by
  have hx : x.toNat < 256 ^ 4 := x.toNat_lt
  rw [uint32OfBytes, uint32Bytes, hostValue_hostBytes order hx, UInt32.ofNat_toNat]

/-- Four bytes are recovered from the {lit}`uint32_t` they hold. -/
theorem uint32Bytes_uint32OfBytes (order : ByteOrder) {bs : List UInt8}
    (hlen : bs.length = 4) :
    uint32Bytes order (uint32OfBytes order bs) = bs := by
  have hlt : hostValue order bs < 2 ^ 32 := by
    have hbound := hostValue_lt order bs
    rw [hlen] at hbound
    exact hbound
  have hback := hostBytes_hostValue order bs
  rw [hlen] at hback
  rw [uint32Bytes, uint32OfBytes, UInt32.toNat_ofNat', Nat.mod_eq_of_lt hlt, hback]

/-- Distinct 32-bit integers have distinct bytes on one host. -/
theorem uint32Bytes_inj (order : ByteOrder) {x y : UInt32}
    (h : uint32Bytes order x = uint32Bytes order y) : x = y := by
  rw [← uint32OfBytes_uint32Bytes order x, h, uint32OfBytes_uint32Bytes]

/-- The tail of a variable-length string ending in a 32-bit integer can be split
off: the two parts are determined by the whole. -/
theorem append_uint32Bytes_inj (order : ByteOrder) {xs ys : List UInt8} {x y : UInt32}
    (h : xs ++ uint32Bytes order x = ys ++ uint32Bytes order y) :
    xs = ys ∧ x = y := by
  have hparts := List.append_inj' h (by simp)
  exact ⟨hparts.1, uint32Bytes_inj order hparts.2⟩

end AutomotiveSecurity.HostInteger
