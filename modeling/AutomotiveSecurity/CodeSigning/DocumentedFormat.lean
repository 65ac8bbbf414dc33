import AutomotiveSecurity.Foundations.Prefix
import AutomotiveSecurity.CodeSigning.SignFirmware

/-!
# The documented package format

The comment on {lit}`FirmwareHeader` and the README describe a header of 64 bytes, a
signature from offset 64 on, and the payload.  This module states a reader of that
description and runs it on what the signing tool writes.

Main results:

- Theorem {lit}`drop_documentedHeader`: the documented header ends four bytes before the
  packed one.
- Theorem {lit}`documented_reader_recovers_iff`: the documented reader recovers
  signature and payload only if they consist of zeros.

Current gaps:

- The documents fix no byte order; the reader uses the writer's.
-/

namespace AutomotiveSecurity.CodeSigning

open HostInteger Memory Prefix

/-! ## The documented reader -/

/-- The documented size of the header. -/
def documentedHeaderSize : Nat :=
  64

/-- Read a package as documented: the two sizes from the header, then {lit}`sig_length`
signature bytes from offset 64 on, then {lit}`payload_size` payload bytes. -/
def readDocumented (order : ByteOrder) (file : List UInt8) :
    Option (List UInt8 × List UInt8) :=
  let payloadSize := (uint32OfBytes order ((file.drop 16).take 4)).toNat
  let sigLength := (uint32OfBytes order ((file.drop 20).take 4)).toNat
  if documentedHeaderSize + sigLength + payloadSize ≤ file.length then
    some
      ((file.drop documentedHeaderSize).take sigLength,
        ((file.drop documentedHeaderSize).drop sigLength).take payloadSize)
  else none

/-- The packed header extends four bytes beyond the documented one. -/
theorem drop_documentedHeader (order : ByteOrder) (p : Package) :
    (p.toBytes order).drop documentedHeaderSize =
      p.header.reserved.bytes.drop 40 ++ (p.signature ++ p.payload) := by
  simp [documentedHeaderSize, Package.toBytes, FirmwareHeader.toBytes, List.drop_append,
    List.drop_eq_nil_of_le]

/-- The documented reader finds the sizes, and reads both sections four bytes early. -/
theorem readDocumented_package (order : ByteOrder) (p : Package) :
    readDocumented order (p.toBytes order) = some (p.signature, p.payload) ↔
      p.signature ++ p.payload <+:
        p.header.reserved.bytes.drop 40 ++ (p.signature ++ p.payload) := by
  have hpayloadSize : uint32OfBytes order (((p.toBytes order).drop 16).take 4) =
      p.header.payloadSize := by
    simp [Package.toBytes, FirmwareHeader.toBytes, List.drop_append, List.drop_eq_nil_of_le]
  have hsigLength : uint32OfBytes order (((p.toBytes order).drop 20).take 4) =
      p.header.sigLength := by
    simp [Package.toBytes, FirmwareHeader.toBytes, List.drop_append, List.drop_eq_nil_of_le]
  have hlong : documentedHeaderSize + p.signature.length + p.payload.length ≤
      (p.toBytes order).length := by
    rw [Package.length_toBytes, Package.size]
    simp [documentedHeaderSize, sizeofFirmwareHeader]
  unfold readDocumented
  simp only [hpayloadSize, hsigLength, ← p.signature_length, ← p.payload_length,
    if_pos hlong, drop_documentedHeader, Option.some.injEq, Prod.mk.injEq]
  exact take_drop_eq_iff

/-- The documented reader recovers the signature and the payload that were signed if and
only if all their bytes are zero. -/
theorem documented_reader_recovers_iff (order : ByteOrder)
    (sign : List UInt8 → List UInt8) (array : Buffer 128) (fwData : List UInt8)
    (hdata : fwData.length < 2 ^ 32) (hsig : (sign fwData).length ≤ 128) :
    ∃ file, signFirmware order sign array fwData = .ok file ∧
      (readDocumented order file = some (sign fwData, fwData) ↔
        (∀ b ∈ sign fwData, b = 0) ∧ ∀ b ∈ fwData, b = 0) := by
  refine ⟨_, signFirmware_eq order sign array hdata hsig, ?_⟩
  have hreader := readDocumented_package order (signedPackage sign fwData hdata hsig)
  have hreserved : (signedPackage sign fwData hdata hsig).header.reserved.bytes.drop 40 =
      List.replicate 4 0 := rfl
  rw [hreserved, prefix_replicate_append_iff (by decide)] at hreader
  exact hreader.trans List.forall_mem_append

theorem documented_reader_on_sample :
    ∃ file, signFirmware .little (fun _ => sampleSignature) (Buffer.zero 128) sampleFwData =
        .ok file ∧
      readDocumented .little file ≠ some (sampleSignature, sampleFwData) := by
  rcases documented_reader_recovers_iff .little (fun _ => sampleSignature) (Buffer.zero 128)
    sampleFwData (by decide) (by decide) with ⟨file, hfile, hrecovers⟩
  exact ⟨file, hfile, fun h => absurd (hrecovers.mp h).2 (by decide)⟩

/-- On the sample package the documented reader yields a signature that starts with
four zero bytes, and a payload that starts with the end of the signature. -/
theorem documented_reader_fails_on_sample :
    ∃ file, signFirmware .little (fun _ => sampleSignature) (Buffer.zero 128) sampleFwData =
        .ok file ∧
      ∃ signature payload, readDocumented .little file = some (signature, payload) ∧
        signature ≠ sampleSignature ∧ payload ≠ sampleFwData := by
  refine ⟨_, signFirmware_eq .little (fun _ => sampleSignature) (Buffer.zero 128)
    (by decide) (by decide), ?_⟩
  exact ⟨[0, 0, 0, 0] ++ sampleSignature.take 66,
    sampleSignature.drop 66 ++ sampleFwData.take 38, by decide +kernel, by decide, by decide⟩

end AutomotiveSecurity.CodeSigning
