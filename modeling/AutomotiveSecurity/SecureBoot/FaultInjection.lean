import AutomotiveSecurity.CodeSigning.RoundTrip
import AutomotiveSecurity.SecureBoot.BootSequence

/-!
# Signature checks under failing calls

{lit}`verify_stage` and {lit}`verify_firmware` look at the result of the last digest-verify
call only.  A fault in one of the calls before it can change what that result stands for.

Main results:

- Theorem {lit}`bootSlots_executes_signed`: a boot sequence runs signed images only, for
  every pattern of failures, unless a slot holds a signature of the empty message.
- Theorem {lit}`signature_checks_sound_iff`: when a favourable result of either program
  means that the signature is valid for the complete data.

Current gaps:

- All stages of a boot sequence share one pattern of failures; {lit}`SecureBoot.Manufacture`
  has one for each check.
-/

namespace AutomotiveSecurity.FaultInjection

open CodeSigning HostInteger Memory OpenSSL SecureBoot

section Soundness

variable {κ : Type*} (valid : SignatureScheme κ) (calls : DigestVerifyCalls)

/-! ## Secure boot -/

/-- {lit}`verify_stage` returns 1 exactly if the last call does. -/
theorem verifyStage_eq_one_iff (rootKey : Option κ) (stageName : String) {stage : BootStage}
    (hfits : stage.Fits) :
    verifyStage valid calls rootKey stageName stage = .ok 1 ↔
      digestVerify valid calls rootKey stage.image stage.sig = 1 := by
  rw [verifyStage_of_calls valid calls rootKey stageName hfits]
  by_cases hresult : digestVerify valid calls rootKey stage.image stage.sig = 1 <;>
    simp [hresult]

/-- Every stage that runs has a valid signature of its image, whichever calls fail, if no
slot holds a signature of the empty message that would stand in for it. -/
theorem bootSlots_executes_signed (rootKey : Option κ) {slots : List (String × BootStage)}
    (hfits : ∀ slot ∈ slots, slot.2.Fits)
    (hfed : ∀ slot ∈ slots, ¬OnlyEmptyChecked valid calls rootKey slot.2.image slot.2.sig) :
    ∃ boot, bootSlots valid calls rootKey slots = .ok boot ∧
      ∀ stage ∈ boot.executed,
        ∃ key, rootKey = some key ∧ valid key stage.image stage.sig = true := by
  rcases bootSlots_of_calls valid calls rootKey hfits with ⟨boot, hboot, hexecuted⟩
  refine ⟨boot, hboot, ?_⟩
  intro stage hstage
  rw [hexecuted] at hstage
  have hresult := List.mem_takeWhile_imp hstage
  rcases List.mem_map.mp (List.takeWhile_subset _ hstage) with ⟨slot, hslot, rfl⟩
  exact digestVerify_sound_iff.mpr (hfed slot hslot) (of_decide_eq_true hresult)

/-! ## Firmware verification -/

/-- The package is reported as genuine though its payload was never fed to the check. -/
def PassesUnchecked (pkey : Option κ) (p : Package) : Prop :=
  p.header.magic.bytes.take 6 = fwsign.take 6 ∧ p.Printable ∧
    OnlyEmptyChecked valid calls pkey p.payload p.signature

/-- A favourable judgement means a valid signature of the complete payload, except for the
packages that pass unchecked. -/
theorem judge_sound_iff (pkey : Option κ) (p : Package) :
    (∀ outcome, judge valid calls pkey p = .ok outcome → outcome.exitCode = 0 →
        ∃ key, pkey = some key ∧ valid key p.payload p.signature = true) ↔
      ¬PassesUnchecked valid calls pkey p := by
  constructor
  · rintro hsound ⟨hmagic, hprintable, hempty⟩
    refine digestVerify_sound_iff.mp ?_ hempty
    intro hresult
    rcases judge_exits_zero_iff.mpr ⟨hmagic, hprintable, hresult⟩ with
      ⟨outcome, houtcome, hcode⟩
    exact hsound outcome houtcome hcode
  · intro hchecked outcome houtcome hcode
    rcases judge_exits_zero_iff.mp ⟨outcome, houtcome, hcode⟩ with
      ⟨hmagic, hprintable, hresult⟩
    refine digestVerify_sound_iff.mpr ?_ hresult
    exact fun hempty => hchecked ⟨hmagic, hprintable, hempty⟩

/-- The same for a run of the tool on its two files. -/
theorem verifyFirmware_sound_iff (order : ByteOrder) (memory : StaleMemory)
    (keyFile : Option (Option κ)) (fwFile : Option (List UInt8)) :
    (∀ outcome, verifyFirmware valid order calls memory keyFile fwFile = .ok outcome →
        outcome.exitCode = 0 →
          ∃ key file, keyFile = some (some key) ∧ fwFile = some file ∧
            valid key (readPackage order memory file).payload
              (readPackage order memory file).signature = true) ↔
      ¬∃ pkey file, keyFile = some pkey ∧ fwFile = some file ∧
        PassesUnchecked valid calls pkey (readPackage order memory file) := by
  cases keyFile with
  | none => simp [verifyFirmware]
  | some pkey =>
      cases fwFile with
      | none => simp [verifyFirmware]
      | some file =>
          have hjudge := judge_sound_iff valid calls pkey (readPackage order memory file)
          simp only [verifyFirmware_eq, Option.some.injEq, exists_and_left, exists_eq_left']
          exact hjudge

/-! ## Both programs -/

/-- For every key, boot stage, firmware file and content of memory, and every pattern of
failing calls: a result of 1 from {lit}`verify_stage` means that the signature is valid for
the complete image, and an exit code of 0 from {lit}`verify_firmware` that it is valid for
the complete payload, exactly if it is not a signature of the empty message that has been
checked in their place after a failing {lit}`EVP_DigestVerifyUpdate`. -/
theorem signature_checks_sound_iff (order : ByteOrder) (rootKey : Option κ)
    (stageName : String) (stage : BootStage) (hfits : stage.Fits) (memory : StaleMemory)
    (keyFile : Option (Option κ)) (fwFile : Option (List UInt8)) :
    ((verifyStage valid calls rootKey stageName stage = .ok 1 →
        ∃ key, rootKey = some key ∧ valid key stage.image stage.sig = true) ↔
      ¬OnlyEmptyChecked valid calls rootKey stage.image stage.sig) ∧
    ((∀ outcome, verifyFirmware valid order calls memory keyFile fwFile = .ok outcome →
        outcome.exitCode = 0 →
          ∃ key file, keyFile = some (some key) ∧ fwFile = some file ∧
            valid key (readPackage order memory file).payload
              (readPackage order memory file).signature = true) ↔
      ¬∃ pkey file, keyFile = some pkey ∧ fwFile = some file ∧
        PassesUnchecked valid calls pkey (readPackage order memory file)) := by
  constructor
  · rw [verifyStage_eq_one_iff valid calls rootKey stageName hfits]
    exact digestVerify_sound_iff
  · exact verifyFirmware_sound_iff valid calls order memory keyFile fwFile

end Soundness

/-- An ECDSA-P256-SHA256 signature of the empty message, DER-encoded. -/
def emptySignature : List UInt8 :=
  [0x30, 0x45, 0x02, 0x21, 0x00, 0x9B, 0xD4, 0x55, 0x7B, 0x42, 0xF3, 0x42, 0x49, 0x5F,
   0x96, 0x32, 0x27, 0xC0, 0x95, 0x4E, 0x9E, 0x20, 0x94, 0x58, 0xB6, 0x4A, 0xBB, 0xFD,
   0x41, 0xCD, 0x8E, 0x2B, 0xFE, 0xED, 0x2C, 0x1D, 0xAD, 0x02, 0x20, 0x2C, 0xAF, 0x71,
   0x23, 0x82, 0xBE, 0xE8, 0x11, 0x47, 0x09, 0x40, 0x52, 0x17, 0xF4, 0xEA, 0xA4, 0x17,
   0x03, 0x0C, 0x28, 0x9B, 0x72, 0xD8, 0x00, 0xC4, 0xA7, 0x9A, 0x6D, 0x6D, 0x30, 0xA4,
   0x2F]

/-- {lit}`EVP_DigestVerifyUpdate` is the only call that fails. -/
def updateFails : DigestVerifyCalls :=
  { DigestVerifyCalls.success with update := false }

/-- {lit}`stage2` after {lit}`stage2.data[0] ^= 0xFF`, with a signature of the empty message. -/
def unsignedStage : BootStage :=
  simulationStage stage2Name (stage2Image.modify 0 (· ^^^ 0xFF)) emptySignature

/-- The firmware of the signing tool with a signature of the empty message. -/
def unsignedPackage : Package :=
  signedPackage (fun _ => emptySignature) sampleFwData (by decide) (by decide)

/-- Where only the empty message has been signed, the tampered stage is verified and the
firmware reported as genuine. -/
theorem unsigned_data_verified_after_failed_update :
    (verifyStage (exactScheme [] emptySignature) updateFails (some ()) "Stage2" unsignedStage =
        .ok 1 ∧
      exactScheme [] emptySignature () unsignedStage.image unsignedStage.sig = false) ∧
    (∃ outcome, verifyFirmware (exactScheme [] emptySignature) .little updateFails
        (unsignedPackage.asMemory .little) (some (some ()))
        (some (unsignedPackage.toBytes .little)) = .ok outcome ∧ outcome.exitCode = 0) ∧
      exactScheme [] emptySignature () unsignedPackage.payload unsignedPackage.signature =
        false := by
  refine ⟨⟨by decide +kernel, by decide +kernel⟩, ?_, by decide +kernel⟩
  rw [verifyFirmware_eq, readPackage_of_prefix _ List.prefix_rfl, judge_exits_zero_iff]
  exact ⟨rfl, Or.inl (by decide), by decide +kernel⟩

/-- In the simulation no empty message is ever signed; there the same failure makes
{lit}`verify_stage` refuse a genuine stage, and a result of 1 still means a valid signature. -/
theorem simulation_stage_refused_after_failed_update :
    verifyStage simulationScheme updateFails (some ()) "Stage2" stage2Record = .ok 0 ∧
      (verifyStage simulationScheme updateFails (some ()) "Stage2" stage2Record = .ok 1 →
        ∃ key, some () = some key ∧
          simulationScheme key stage2Record.image stage2Record.sig = true) := by
  have hsound := signature_checks_sound_iff simulationScheme updateFails .little (some ())
    "Stage2" stage2Record (by decide +kernel) (unsignedPackage.asMemory .little) none none
  refine ⟨by decide +kernel, hsound.1.mpr ?_⟩
  rintro ⟨-, -, -, ⟨⟩, -, hempty, -⟩
  exact absurd hempty (by decide +kernel)

end AutomotiveSecurity.FaultInjection
