import AutomotiveSecurity.CodeSigning.SignFirmware
import AutomotiveSecurity.CodeSigning.VerifyFirmware

/-!
# Round trip of firmware packages

What the verification tool does with the file the signing tool wrote, on a host of
the same byte order.

Main results:

- Theorem {lit}`verifyFirmware_signed`: the tool judges exactly the package that was
  signed, whatever its memory held before.
- Theorem {lit}`package_round_trip_iff`: it recovers header, signature and payload, has
  them checked and exits with 0, unless printing the payload leaves its buffer.

Current gaps:

- The signature scheme is only assumed to accept the one signature of the package.
-/

namespace AutomotiveSecurity.CodeSigning

open HostInteger Memory OpenSSL

section Signed

variable {κ : Type*} {valid : SignatureScheme κ} {order : ByteOrder}
  {sign : List UInt8 → List UInt8} {fwData : List UInt8}

/-- The signed file is read as the signed package. -/
theorem verifyFirmware_signed (memory : StaleMemory) (pkey : Option κ)
    (hdata : fwData.length < 2 ^ 32) (hsig : (sign fwData).length ≤ 128) :
    verifyFirmware valid order .success memory (some pkey)
        (some ((signedPackage sign fwData hdata hsig).toBytes order)) =
      judge valid .success pkey (signedPackage sign fwData hdata hsig) := by
  rw [verifyFirmware_eq, readPackage_of_prefix memory List.prefix_rfl]

/-- The signed package is authentic for a scheme that accepts its signature. -/
theorem signedPackage_authentic {key : κ} (hdata : fwData.length < 2 ^ 32)
    (hsig : (sign fwData).length ≤ 128) (hown : valid key fwData (sign fwData) = true) :
    (signedPackage sign fwData hdata hsig).Authentic valid (some key) :=
  ⟨rfl, key, rfl, hown⟩

end Signed

/-- For a signature that the scheme accepts: from the file that was written, the
verification tool recovers the header fields, hands exactly the signed data and its
signature to the digest calls and exits with 0, whatever was in memory, if and only if
the data is shorter than {lit}`2 ^ 31` bytes or contains a NUL. -/
theorem package_round_trip_iff {κ : Type*} (valid : SignatureScheme κ) (order : ByteOrder)
    (sign : List UInt8 → List UInt8) (key : κ) (array : Buffer 128) (fwData : List UInt8)
    (hdata : fwData.length < 2 ^ 32) (hsig : (sign fwData).length ≤ 128)
    (hown : valid key fwData (sign fwData) = true) :
    ∃ file, signFirmware order sign array fwData = .ok file ∧
      ((∀ memory, ∃ outcome header,
          verifyFirmware valid order .success memory (some (some key)) (some file) =
              .ok outcome ∧
            outcome.header = some header ∧ header.version = 1 ∧ header.algorithm = 1 ∧
              header.payloadSize.toNat = fwData.length ∧
              header.sigLength.toNat = (sign fwData).length ∧
            outcome.digestCalls = [.update fwData, .final (sign fwData)] ∧
              outcome.exitCode = 0) ↔
        fwData.length < 2 ^ 31 ∨ 0 ∈ fwData) := by
  have hauthentic := signedPackage_authentic hdata hsig hown
  refine ⟨_, signFirmware_eq order sign array hdata hsig, ?_⟩
  simp only [verifyFirmware_signed]
  constructor
  · intro hround
    -- Any memory will do: the run does not depend on it.
    rcases hround ((signedPackage sign fwData hdata hsig).asMemory order) with
      ⟨outcome, _, houtcome, -⟩
    exact (judge_returns_iff hauthentic).mp ⟨outcome, houtcome⟩
  · intro hprintable memory
    rcases (judge_returns_iff hauthentic).mpr hprintable with ⟨outcome, houtcome⟩
    rcases judge_outcome hauthentic houtcome with ⟨hcode, hheader, hcalls⟩
    have hpayload := (signedPackage sign fwData hdata hsig).payload_length
    have hsignature := (signedPackage sign fwData hdata hsig).signature_length
    exact ⟨outcome, _, houtcome, hheader, rfl, rfl, hpayload.symm, hsignature.symm, hcalls,
      hcode⟩

/-- The scheme that has signed the given message once. -/
def exactScheme (message signature : List UInt8) : SignatureScheme Unit :=
  tableScheme [(message, signature)]

theorem exactScheme_iff {message signature m s : List UInt8} :
    exactScheme message signature () m s = true ↔ m = message ∧ s = signature := by
  simp [exactScheme, tableScheme_iff]

theorem sample_package_round_trip :
    ∃ file, signFirmware .little (fun _ => sampleSignature) (Buffer.zero 128) sampleFwData =
        .ok file ∧
      ∀ memory, ∃ outcome,
        verifyFirmware (exactScheme sampleFwData sampleSignature) .little .success memory
            (some (some ())) (some file) = .ok outcome ∧
          outcome.exitCode = 0 := by
  rcases package_round_trip_iff (exactScheme sampleFwData sampleSignature) .little
    (fun _ => sampleSignature) () (Buffer.zero 128) sampleFwData (by decide) (by decide)
    (exactScheme_iff.mpr ⟨rfl, rfl⟩) with ⟨file, hfile, hround⟩
  refine ⟨file, hfile, fun memory => ?_⟩
  rcases hround.mpr (Or.inl (by decide)) memory with
    ⟨outcome, _, houtcome, -, -, -, -, -, -, hcode⟩
  exact ⟨outcome, houtcome, hcode⟩

/-- Firmware data that is too long for {lit}`%.*s`. -/
def longFwData : List UInt8 :=
  List.replicate (2 ^ 31) 0x41

/-- The package of {lit}`longFwData` is signed, but verifying it has no exit code. -/
theorem long_package_has_no_exit_code :
    ∃ file, signFirmware .little (fun _ => sampleSignature) (Buffer.zero 128) longFwData =
        .ok file ∧
      ∀ memory outcome,
        verifyFirmware (exactScheme longFwData sampleSignature) .little .success memory
          (some (some ())) (some file) ≠ .ok outcome := by
  have hlength : longFwData.length = 2 ^ 31 := List.length_replicate
  have hdata : longFwData.length < 2 ^ 32 := by omega
  have hsig : sampleSignature.length ≤ 128 := by decide
  have hnul : 0 ∉ longFwData := by
    intro hmem
    exact absurd (List.eq_of_mem_replicate hmem) (by decide)
  have hauthentic : (signedPackage (fun _ => sampleSignature) longFwData hdata hsig).Authentic
      (exactScheme longFwData sampleSignature) (some ()) :=
    signedPackage_authentic hdata hsig (exactScheme_iff.mpr ⟨rfl, rfl⟩)
  refine ⟨_, signFirmware_eq .little _ _ hdata hsig, ?_⟩
  intro memory outcome houtcome
  rw [verifyFirmware_signed] at houtcome
  rcases (judge_returns_iff hauthentic).mp ⟨outcome, houtcome⟩ with hshort | hmem
  · exact absurd hlength (Nat.ne_of_lt hshort)
  · exact hnul hmem

end AutomotiveSecurity.CodeSigning
