import AutomotiveSecurity.CodeSigning.Package
import AutomotiveSecurity.OpenSSL.DigestSign

/-!
# The firmware signing tool

The part of {lit}`main` in {lit}`sign_firmware.c` that signs the firmware and writes
the package, for any firmware data and any signing function, with and without failing
digest-sign calls.

Main results:

- Theorem {lit}`signFirmwareWith_of_calls`: once the calls have left a signature and a length,
  the tool writes the bytes that count, or reads beyond the array.
- Theorem {lit}`signFirmware_eq`: the file is the package with the data, its signature
  and the header {lit}`signedHeader`.

Current gaps:

- Key generation and the key files are not modelled; all file operations succeed.
-/

namespace AutomotiveSecurity.CodeSigning

open HostInteger Memory OpenSSL

/-- {lit}`fw_data` of the tool, {lit}`"ECU_FIRMWARE_v2.5.1_BUILD_20231217_RELEASE"`. -/
def sampleFwData : List UInt8 :=
  [0x45, 0x43, 0x55, 0x5F, 0x46, 0x49, 0x52, 0x4D, 0x57, 0x41, 0x52, 0x45, 0x5F, 0x76,
   0x32, 0x2E, 0x35, 0x2E, 0x31, 0x5F, 0x42, 0x55, 0x49, 0x4C, 0x44, 0x5F, 0x32, 0x30,
   0x32, 0x33, 0x31, 0x32, 0x31, 0x37, 0x5F, 0x52, 0x45, 0x4C, 0x45, 0x41, 0x53, 0x45]

/-- An ECDSA-P256-SHA256 signature of {lit}`sampleFwData`, DER-encoded. -/
def sampleSignature : List UInt8 :=
  [0x30, 0x44, 0x02, 0x20, 0x58, 0x04, 0x43, 0xB3, 0x2E, 0x06, 0x49, 0xB9, 0xB4, 0xC2,
   0x1A, 0xE3, 0x12, 0x48, 0xC1, 0xF6, 0x78, 0xA5, 0xA9, 0xBB, 0x3E, 0xE1, 0x3E, 0x09,
   0xB0, 0xDE, 0x0C, 0xE8, 0x63, 0xDE, 0x11, 0xC7, 0x02, 0x20, 0x2B, 0x22, 0x47, 0xE4,
   0xCF, 0x80, 0x29, 0x1D, 0x73, 0xE0, 0x64, 0xE2, 0x2C, 0x8C, 0xA9, 0xAC, 0x21, 0x71,
   0xD1, 0xED, 0x82, 0x6A, 0xC3, 0xF4, 0x23, 0x1B, 0x00, 0xA8, 0x72, 0xEC, 0x82, 0xD7]

section Signer

variable (order : ByteOrder) (sign : List UInt8 → List UInt8)

/-- The file {lit}`signed_firmware.bin` for the given data, where {lit}`run` is what the
digest-sign calls do to the signature and its length. -/
def signFirmwareWith (run : List UInt8 → Except Fault (Buffer 128 × UInt64))
    (fwData : List UInt8) : Except Fault (List UInt8) := do
  let (signature, sigLen) ← run fwData
  let _shown ← load signature.bytes 32
  let magic ← memcpy (Buffer.zero 8) 0 fwsign 6
  let header : FirmwareHeader :=
    { magic
      version := 1
      algorithm := 1
      payloadSize := UInt32.ofNat fwData.length
      sigLength := UInt32.ofNat sigLen.toNat
      reserved := Buffer.zero 44 }
  let sigBytes ← load signature.bytes sigLen.toNat
  return (header.toBytes order).bytes ++ sigBytes ++ fwData

/-- The tool when no call fails.  {lit}`sign` is what {lit}`EVP_DigestSignFinal` produces,
{lit}`array` what {lit}`signature[128]` held. -/
def signFirmware (array : Buffer 128) (fwData : List UInt8) : Except Fault (List UInt8) :=
  signFirmwareWith order (fun message => writeSignature sign message array) fwData

/-- The tool when some of its digest-sign calls fail; {lit}`staleLen` is what {lit}`sig_len`
held. -/
def signFirmwareUnder (signer : Signer) (calls : DigestSignCalls) (array : Buffer 128)
    (staleLen : UInt64) (fwData : List UInt8) : Except Fault (List UInt8) :=
  signFirmwareWith order (fun message => digestSign signer calls message array staleLen) fwData

/-- Without a failing call this is {lit}`signFirmware`. -/
theorem signFirmwareUnder_success {signer : Signer} (hroom : signer.maxSize ≤ 128)
    (array : Buffer 128) (staleLen : UInt64) (fwData : List UInt8) :
    signFirmwareUnder order signer .success array staleLen fwData =
      signFirmware order signer.sign array fwData := by
  rw [signFirmwareUnder, signFirmware, signFirmwareWith, signFirmwareWith,
    digestSign_success (lt_of_le_of_lt hroom (by decide))]

/-- The header that the tool writes for the given lengths. -/
def signedHeader (fwLen sigLen : UInt32) : FirmwareHeader where
  magic := ⟨[0x46, 0x57, 0x53, 0x49, 0x47, 0x4E, 0x00, 0x00], rfl⟩
  version := 1
  algorithm := 1
  payloadSize := fwLen
  sigLength := sigLen
  reserved := Buffer.zero 44

/-- The package of some data and its signature. -/
def signedPackage (fwData : List UInt8) (hdata : fwData.length < 2 ^ 32)
    (hsig : (sign fwData).length ≤ 128) : Package where
  header :=
    signedHeader (UInt32.ofNat fwData.length) (UInt32.ofNat (sign fwData).length)
  signature := sign fwData
  payload := fwData
  signature_length := (UInt32.toNat_ofNat_of_lt' (lt_of_le_of_lt hsig (by decide))).symm
  payload_length := (UInt32.toNat_ofNat_of_lt' hdata).symm

/-- Once the calls have left a signature array and a length, the tool writes the bytes that
count, or reads beyond the array. -/
theorem signFirmwareWith_of_calls {run : List UInt8 → Except Fault (Buffer 128 × UInt64)}
    {fwData : List UInt8} {after : Buffer 128 × UInt64} (hafter : run fwData = .ok after)
    (hdata : fwData.length < 2 ^ 32) :
    (∀ hshort : after.2.toNat ≤ 128, signFirmwareWith order run fwData =
        .ok ((signedPackage (fun _ => after.1.bytes.take after.2.toNat) fwData hdata
          ((List.length_take_le _ _).trans hshort)).toBytes order)) ∧
      (¬after.2.toNat ≤ 128 → signFirmwareWith order run fwData = .error (.read 128)) := by
  have hshown : load after.1.bytes 32 = .ok (after.1.bytes.take 32) :=
    load_of_le (by simp)
  have hmagic : memcpy (Buffer.zero 8) 0 fwsign 6 = .ok (signedHeader 0 0).magic := by
    decide
  unfold signFirmwareWith
  simp only [hafter, hshown, hmagic, bind, Except.bind]
  constructor
  · intro hshort
    have hlength : (after.1.bytes.take after.2.toNat).length = after.2.toNat :=
      after.1.length_take hshort
    rw [load_of_le (by simpa using hshort)]
    simp only [signedPackage, hlength]
    rfl
  · intro hlong
    rw [load, if_neg (by simpa using hlong), Buffer.size_eq]

/-- A signature that fits its array is written out whole, between header and data. -/
theorem signFirmware_eq (array : Buffer 128) {fwData : List UInt8}
    (hdata : fwData.length < 2 ^ 32) (hsig : (sign fwData).length ≤ 128) :
    signFirmware order sign array fwData =
      .ok ((signedPackage sign fwData hdata hsig).toBytes order) := by
  have hroom : 0 + (sign fwData).length ≤ 128 := by omega
  have hlen : (UInt64.ofNat (sign fwData).length).toNat = (sign fwData).length :=
    UInt64.toNat_ofNat_of_lt' (lt_of_le_of_lt hsig (by decide))
  have hwrite : writeSignature sign fwData array =
      .ok (array.overwrite 0 (sign fwData) hroom, UInt64.ofNat (sign fwData).length) := by
    rw [writeSignature, store_of_le array hroom]
    rfl
  have hwhole : (array.overwrite 0 (sign fwData) hroom).bytes.take
      (UInt64.ofNat (sign fwData).length).toNat = sign fwData := by
    rw [hlen]
    exact Buffer.take_overwrite array hroom
  rw [signFirmware, (signFirmwareWith_of_calls order hwrite hdata).1 (hlen.le.trans hsig)]
  simp only [hwhole]
  rfl

end Signer

end AutomotiveSecurity.CodeSigning
