import AutomotiveSecurity.Foundations.HostInteger
import AutomotiveSecurity.Foundations.Memory
import AutomotiveSecurity.Foundations.Prefix

/-!
# Firmware packages

The packed {lit}`FirmwareHeader` that {lit}`sign_firmware.c` and
{lit}`verify_firmware.c` both declare, and the package it heads: a signature and a
payload of the announced lengths.

Main results:

- Theorems {lit}`FirmwareHeader.ofBytes_toBytes` and
  {lit}`FirmwareHeader.toBytes_ofBytes`: the packed header round-trips in both
  directions.
- Theorem {lit}`Package.length_toBytes`: the size of a package is what its header
  announces, after a header of 68 bytes.

Current gaps:

- None for the layout; {lit}`#pragma pack(1)` leaves no padding to model.
-/

namespace AutomotiveSecurity.CodeSigning

open HostInteger Memory Prefix

/-! ## The packed header -/

/-- The string literal {lit}`"FWSIGN"` with its NUL, which both tools use. -/
def fwsign : List UInt8 :=
  [0x46, 0x57, 0x53, 0x49, 0x47, 0x4E, 0x00]

/-- The fields of {lit}`FirmwareHeader`. -/
@[ext]
structure FirmwareHeader where
  magic : Buffer 8
  version : UInt32
  algorithm : UInt32
  payloadSize : UInt32
  sigLength : UInt32
  reserved : Buffer 44
deriving DecidableEq, Repr

/-- {lit}`sizeof(FirmwareHeader)`: the sizes of the six packed fields. -/
def sizeofFirmwareHeader : Nat :=
  8 + 4 + 4 + 4 + 4 + 44

/-- The header as its bytes in memory. -/
def FirmwareHeader.toBytes (order : ByteOrder) (header : FirmwareHeader) :
    Buffer sizeofFirmwareHeader where
  bytes :=
    header.magic.bytes ++ uint32Bytes order header.version ++
      uint32Bytes order header.algorithm ++ uint32Bytes order header.payloadSize ++
        uint32Bytes order header.sigLength ++ header.reserved.bytes
  size_eq := by simp [sizeofFirmwareHeader]

/-- The header that the given bytes in memory represent. -/
def FirmwareHeader.ofBytes (order : ByteOrder) (object : Buffer sizeofFirmwareHeader) :
    FirmwareHeader where
  magic := object.slice 0 8 (by decide)
  version := uint32OfBytes order (object.slice 8 4 (by decide)).bytes
  algorithm := uint32OfBytes order (object.slice 12 4 (by decide)).bytes
  payloadSize := uint32OfBytes order (object.slice 16 4 (by decide)).bytes
  sigLength := uint32OfBytes order (object.slice 20 4 (by decide)).bytes
  reserved := object.slice 24 44 (by decide)

/-- Every header is read back from its bytes. -/
@[simp]
theorem FirmwareHeader.ofBytes_toBytes (order : ByteOrder) (header : FirmwareHeader) :
    FirmwareHeader.ofBytes order (header.toBytes order) = header := by
  -- Each slice starts where the fields before it end.
  ext1 <;>
    simp [ofBytes, toBytes, Buffer.slice, List.drop_append, List.drop_eq_nil_of_le,
      List.take_of_length_le]

/-- Every 68 bytes are the bytes of the header they represent. -/
@[simp]
theorem FirmwareHeader.toBytes_ofBytes (order : ByteOrder)
    (object : Buffer sizeofFirmwareHeader) :
    (FirmwareHeader.ofBytes order object).toBytes order = object := by
  apply Buffer.ext
  have hword : ∀ offset (hfits : offset + 4 ≤ sizeofFirmwareHeader),
      uint32Bytes order (uint32OfBytes order (object.slice offset 4 hfits).bytes) =
        (object.slice offset 4 hfits).bytes := by
    intro offset hfits
    exact uint32Bytes_uint32OfBytes order (Buffer.size_eq _)
  have hmagic : (object.slice 0 8 (by decide)).bytes = object.bytes.take 8 := rfl
  have hall : object.bytes.take sizeofFirmwareHeader = object.bytes := by
    rw [List.take_of_length_le (Nat.le_of_eq object.size_eq)]
  simp only [toBytes, ofBytes, hword, hmagic]
  simp only [Buffer.take_append_slice]
  exact hall

/-! ## Packages -/

/-- A header followed by a signature and a payload of the lengths it announces. -/
@[ext]
structure Package where
  header : FirmwareHeader
  signature : List UInt8
  payload : List UInt8
  signature_length : signature.length = header.sigLength.toNat
  payload_length : payload.length = header.payloadSize.toNat
deriving DecidableEq, Repr

/-- The package as the bytes of a file. -/
def Package.toBytes (order : ByteOrder) (p : Package) : List UInt8 :=
  (p.header.toBytes order).bytes ++ p.signature ++ p.payload

/-- The number of bytes a package takes in a file. -/
def Package.size (p : Package) : Nat :=
  sizeofFirmwareHeader + p.signature.length + p.payload.length

@[simp]
theorem Package.length_toBytes (order : ByteOrder) (p : Package) :
    (p.toBytes order).length = p.size := by
  simp [toBytes, size, Nat.add_assoc]

/-- The payload of a file that starts with a package lies after the signature. -/
theorem Package.payload_of_prefix {order : ByteOrder} {p : Package} {file : List UInt8}
    (hfile : p.toBytes order <+: file) :
    p.payload =
      (file.drop (sizeofFirmwareHeader + p.header.sigLength.toNat)).take
        p.header.payloadSize.toNat := by
  have hfront : ((p.header.toBytes order).bytes ++ p.signature).length =
      sizeofFirmwareHeader + p.header.sigLength.toNat := by
    simp [p.signature_length]
  have hpayload := prefix_drop_of_append hfront hfile
  rw [← p.payload_length]
  exact List.prefix_iff_eq_take.mp hpayload

end AutomotiveSecurity.CodeSigning
