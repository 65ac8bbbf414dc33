import AutomotiveSecurity.CodeSigning.RoundTrip

/-!
# Tampered and truncated packages

The signature covers the payload, and the verification tool tests six bytes of the
magic; the sizes are bound because they cut out signature and payload.  The other
header bytes are free.  Since the tool ignores how many bytes its reads return, a file
that was cut short is completed by whatever memory held.

Main results:

- Theorem {lit}`tampering_with_checked_parts_detected`: no other value of a checked part
  survives, and no other value of the rest is noticed.
- Theorem {lit}`verdict_depends_on_file_alone_iff`: the files on which memory has no say.

Current gaps:

- The signature scheme is ideal: it accepts one signature of one message.
-/

namespace AutomotiveSecurity.CodeSigning

open HostInteger Memory OpenSSL Prefix

section Verdict

variable {κ : Type*} {valid : SignatureScheme κ} {order : ByteOrder} {pkey : Option κ}

/-- The exit code of a run, if it has one. -/
def exitCode (run : Except Fault Outcome) : Except Fault Int :=
  run.map Outcome.exitCode

/-! ## What the verdict depends on -/

/-- Two packages agree in the parts that the tool checks. -/
structure Package.SameChecked (p q : Package) : Prop where
  magic : p.header.magic.bytes.take 6 = q.header.magic.bytes.take 6
  payload_size : p.header.payloadSize = q.header.payloadSize
  sig_length : p.header.sigLength = q.header.sigLength
  signature : p.signature = q.signature
  payload : p.payload = q.payload

/-- Packages that agree in the checked parts are authentic together. -/
theorem Package.SameChecked.authentic {p q : Package} (hsame : p.SameChecked q)
    (hauthentic : p.Authentic valid pkey) : q.Authentic valid pkey := by
  unfold Package.Authentic at hauthentic ⊢
  rwa [← hsame.magic, ← hsame.payload, ← hsame.signature]

theorem Package.SameChecked.symm {p q : Package} (hsame : p.SameChecked q) :
    q.SameChecked p where
  magic := hsame.magic.symm
  payload_size := hsame.payload_size.symm
  sig_length := hsame.sig_length.symm
  signature := hsame.signature.symm
  payload := hsame.payload.symm

/-- The exit code of an authentic package is the fate of printing it. -/
theorem exitCode_of_authentic {p : Package} (hauthentic : p.Authentic valid pkey) :
    exitCode (judge valid .success pkey p) =
      (printfString p.header.payloadSize.toInt32.toInt p.payload).map fun _ => 0 := by
  rw [judge_of_authentic hauthentic]
  unfold exitCode
  cases printfString p.header.payloadSize.toInt32.toInt p.payload <;> rfl

/-- Every other package makes the tool exit with 1. -/
theorem exitCode_of_not_authentic {p : Package} (hauthentic : ¬p.Authentic valid pkey) :
    exitCode (judge valid .success pkey p) = .ok 1 := by
  rcases judge_of_not_authentic hauthentic with ⟨outcome, houtcome, hcode, -⟩
  rw [houtcome]
  exact congrArg Except.ok hcode

/-- Packages that agree in the checked parts have the same exit code. -/
theorem Package.SameChecked.exitCode_eq {p q : Package} (hsame : p.SameChecked q) :
    exitCode (judge valid .success pkey p) = exitCode (judge valid .success pkey q) := by
  by_cases hauthentic : p.Authentic valid pkey
  · rw [exitCode_of_authentic hauthentic, exitCode_of_authentic (hsame.authentic hauthentic),
      hsame.payload_size, hsame.payload]
  · rw [exitCode_of_not_authentic hauthentic,
      exitCode_of_not_authentic fun h => hauthentic (hsame.symm.authentic h)]

/-- A package with the payload and the signature of a signed one has its sizes too. -/
theorem sameChecked_of_authentic {sign : List UInt8 → List UInt8} {fwData : List UInt8}
    {key : κ} (hdata : fwData.length < 2 ^ 32) (hsig : (sign fwData).length ≤ 128)
    (hideal : ∀ m s, valid key m s = true → m = fwData ∧ s = sign fwData) {p : Package}
    (hauthentic : p.Authentic valid (some key)) :
    p.SameChecked (signedPackage sign fwData hdata hsig) := by
  rcases hauthentic with ⟨hmagic, key', hkey, hvalid⟩
  have hsameKey : key = key' := Option.some.inj hkey
  subst hsameKey
  rcases hideal _ _ hvalid with ⟨hpayload, hsignature⟩
  constructor
  · exact hmagic
  · apply UInt32.toNat.inj
    rw [← p.payload_length, hpayload]
    exact (signedPackage sign fwData hdata hsig).payload_length
  · apply UInt32.toNat.inj
    rw [← p.signature_length, hsignature]
    exact (signedPackage sign fwData hdata hsig).signature_length
  · exact hsignature
  · exact hpayload

end Verdict

/-! ## Tampering -/

/-- Let {lit}`f` be the file signed by an ideal scheme and {lit}`g` a file that holds all
the bytes its own header announces.  If the tool exits with 0 on {lit}`g` or reports it as
genuine, then {lit}`g` has the first six magic bytes, the sizes, the signature and the
payload of {lit}`f`; and if it has these, it gets the exit code of {lit}`f`. -/
theorem tampering_with_checked_parts_detected {κ : Type*} (valid : SignatureScheme κ)
    (order : ByteOrder) (sign : List UInt8 → List UInt8) (key : κ) (array : Buffer 128)
    (fwData : List UInt8) (hdata : fwData.length < 2 ^ 32)
    (hsig : (sign fwData).length ≤ 128)
    (hideal : ∀ m s, valid key m s = true → m = fwData ∧ s = sign fwData)
    (g : List UInt8) (p : Package) (hcomplete : p.toBytes order <+: g) :
    ∃ f, signFirmware order sign array fwData = .ok f ∧
      (∀ memory outcome,
        verifyFirmware valid order .success memory (some (some key)) (some g) = .ok outcome →
          (outcome.exitCode = 0 ∨ ∃ content, outcome.report = .genuine content) →
            p.SameChecked (signedPackage sign fwData hdata hsig)) ∧
      (p.SameChecked (signedPackage sign fwData hdata hsig) →
        ∀ memory memory',
          exitCode (verifyFirmware valid order .success memory (some (some key)) (some g)) =
            exitCode
              (verifyFirmware valid order .success memory' (some (some key)) (some f))) := by
  refine ⟨_, signFirmware_eq order sign array hdata hsig, ?_, ?_⟩
  · intro memory outcome houtcome hgenuine
    rw [verifyFirmware_eq, readPackage_of_prefix memory hcomplete] at houtcome
    exact sameChecked_of_authentic hdata hsig hideal (authentic_of_judge houtcome hgenuine)
  · intro hsame memory memory'
    rw [verifyFirmware_signed, verifyFirmware_eq, readPackage_of_prefix memory hcomplete]
    exact hsame.exitCode_eq

/-- The sample package with another version in its header. -/
def relabelledPackage : Package where
  header := { signedHeader 42 70 with version := 7 }
  signature := sampleSignature
  payload := sampleFwData
  signature_length := rfl
  payload_length := rfl

/-- Zeroed memory. -/
def clearMemory : StaleMemory where
  header := Buffer.zero sizeofFirmwareHeader
  signature := Buffer.zero
  payload := Buffer.zero

theorem sample_tampering :
    ∃ f, signFirmware .little (fun _ => sampleSignature) (Buffer.zero 128) sampleFwData =
        .ok f ∧
      exitCode (verifyFirmware (exactScheme sampleFwData sampleSignature) .little .success
          clearMemory (some (some ())) (some (relabelledPackage.toBytes .little))) =
        exitCode (verifyFirmware (exactScheme sampleFwData sampleSignature) .little .success
          clearMemory (some (some ())) (some f)) := by
  rcases tampering_with_checked_parts_detected (exactScheme sampleFwData sampleSignature)
    .little (fun _ => sampleSignature) () (Buffer.zero 128) sampleFwData (by decide)
    (by decide) (fun _ _ => exactScheme_iff.mp) _ relabelledPackage List.prefix_rfl with
    ⟨f, hf, -, hfree⟩
  exact ⟨f, hf, hfree ⟨rfl, rfl, rfl, rfl, rfl⟩ clearMemory clearMemory⟩

/-- A changed version, appended bytes, and the loss of the payload all go unnoticed; the
last one where memory holds the payload of an earlier run. -/
theorem sample_tampering_undetected :
    ∃ f, signFirmware .little (fun _ => sampleSignature) (Buffer.zero 128) sampleFwData =
        .ok f ∧
      (relabelledPackage.toBytes .little ≠ f ∧
        exitCode (verifyFirmware (exactScheme sampleFwData sampleSignature) .little .success
          clearMemory (some (some ())) (some (relabelledPackage.toBytes .little))) = .ok 0) ∧
      exitCode (verifyFirmware (exactScheme sampleFwData sampleSignature) .little .success
          clearMemory (some (some ())) (some (f ++ [0x00]))) = .ok 0 ∧
        exitCode (verifyFirmware (exactScheme sampleFwData sampleSignature) .little .success
          (relabelledPackage.asMemory .little) (some (some ())) (some (f.take 138))) =
            .ok 0 := by
  refine ⟨_, signFirmware_eq .little (fun _ => sampleSignature) (Buffer.zero 128)
    (by decide) (by decide), ?_⟩
  decide +kernel

/-! ## Truncation -/

/-- What was checked lay in the file: it held all announced bytes, and the message was the
payload after the signature. -/
def VouchesForFile (file : List UInt8) (outcome : Outcome) : Prop :=
  ∃ header signature, outcome.header = some header ∧
    sizeofFirmwareHeader + header.sigLength.toNat + header.payloadSize.toNat ≤ file.length ∧
      outcome.digestCalls =
        [.update ((file.drop (sizeofFirmwareHeader + header.sigLength.toNat)).take
            header.payloadSize.toNat),
          .final signature]

/-- The file is a package cut short. -/
structure CutShort (order : ByteOrder) (p : Package) (file : List UInt8) : Prop where
  file_prefix : file <+: p.toBytes order
  length_lt : file.length < p.size

section Truncation

variable {κ : Type*} {valid : SignatureScheme κ} {order : ByteOrder} {pkey : Option κ}

/-- Unless the file starts with the package that is in memory after the reads, it is that
package cut short. -/
theorem cutShort_readPackage {memory : StaleMemory} {file : List UInt8}
    (hincomplete : ¬(readPackage order memory file).toBytes order <+: file) :
    CutShort order (readPackage order memory file) file := by
  have hfront : file.take (readPackage order memory file).size <+: _ :=
    take_prefix_readPackage memory file
  have hshort : file.length < (readPackage order memory file).size := by
    by_contra hlong
    have hsame := hfront.eq_of_length (by
      rw [List.length_take, Package.length_toBytes]
      omega)
    exact hincomplete (hsame ▸ List.take_prefix _ _)
  rw [List.take_of_length_le (Nat.le_of_lt hshort)] at hfront
  exact ⟨hfront, hshort⟩

/-- Accepting a package that the file starts with is vouching for the file. -/
theorem vouchesForFile_of_prefix {p : Package} {file : List UInt8} {outcome : Outcome}
    (hfile : p.toBytes order <+: file) (hauthentic : p.Authentic valid pkey)
    (houtcome : judge valid .success pkey p = .ok outcome) :
    VouchesForFile file outcome := by
  rcases judge_outcome hauthentic houtcome with ⟨-, hheader, hcalls⟩
  have hlength := hfile.length_le
  rw [Package.length_toBytes, Package.size, p.signature_length, p.payload_length] at hlength
  rw [p.payload_of_prefix hfile] at hcalls
  exact ⟨p.header, p.signature, hheader, hlength, hcalls⟩

/-- Accepting a package of which the file lacks a part is not. -/
theorem CutShort.not_vouchesForFile {p : Package} {file : List UInt8} {outcome : Outcome}
    (hcut : CutShort order p file) (hauthentic : p.Authentic valid pkey)
    (houtcome : judge valid .success pkey p = .ok outcome) :
    ¬VouchesForFile file outcome := by
  rintro ⟨header, _, hheader, hlong, -⟩
  have hsame : p.header = header :=
    Option.some.inj ((judge_outcome hauthentic houtcome).2.1.symm.trans hheader)
  subst hsame
  have hshort := hcut.length_lt
  rw [Package.size, p.signature_length, p.payload_length] at hshort
  omega

/-- A run with an exit code has an outcome. -/
theorem outcome_of_exitCode {run : Except Fault Outcome} {code : Int}
    (hcode : exitCode run = .ok code) : ∃ outcome, run = .ok outcome := by
  cases run with
  | error fault => simp [exitCode, Except.map] at hcode
  | ok outcome => exact ⟨outcome, rfl⟩

/-- Packages that can be printed always have an exit code. -/
theorem exitCode_of_printable {p : Package}
    (hprint : p.Authentic valid pkey → p.Printable) :
    ∃ code, exitCode (judge valid .success pkey p) = .ok code := by
  by_cases hauthentic : p.Authentic valid pkey
  · rcases (judge_returns_iff hauthentic).mpr (hprint hauthentic) with ⟨outcome, houtcome⟩
    exact ⟨outcome.exitCode, congrArg exitCode houtcome⟩
  · exact ⟨1, exitCode_of_not_authentic hauthentic⟩

end Truncation

/-- For every key and file: the exit code is the same for every prior content of memory,
and an exit code of 0 vouches for the file, if and only if the file is not an authentic
package cut short, nor starts with an authentic package that cannot be printed. -/
theorem verdict_depends_on_file_alone_iff {κ : Type*} (valid : SignatureScheme κ)
    (order : ByteOrder) (pkey : Option κ) (file : List UInt8) :
    ((∃ code, ∀ memory,
        exitCode (verifyFirmware valid order .success memory (some pkey) (some file)) =
          .ok code) ∧
      ∀ memory outcome,
        verifyFirmware valid order .success memory (some pkey) (some file) = .ok outcome →
          outcome.exitCode = 0 → VouchesForFile file outcome) ↔
      (∀ p : Package, p.Authentic valid pkey → ¬CutShort order p file) ∧
        ∀ p : Package, p.Authentic valid pkey → p.toBytes order <+: file → p.Printable := by
  simp only [verifyFirmware_eq]
  constructor
  · rintro ⟨⟨code, hcode⟩, hzero⟩
    -- A package that some memory turns the file into has an outcome.
    have hreturns : ∀ p : Package, readPackage order (p.asMemory order) file = p →
        ∃ outcome, judge valid .success pkey p = .ok outcome := by
      intro p hread
      have hthis := hcode (p.asMemory order)
      rw [hread] at hthis
      exact outcome_of_exitCode hthis
    constructor
    · intro p hauthentic hcut
      have hread := readPackage_of_memory hcut.file_prefix
      rcases hreturns p hread with ⟨outcome, houtcome⟩
      have hexit := (judge_outcome hauthentic houtcome).1
      have hvouches := hzero (p.asMemory order) outcome (hread.symm ▸ houtcome) hexit
      exact hcut.not_vouchesForFile hauthentic houtcome hvouches
    · intro p hauthentic hfile
      have hread := readPackage_of_prefix (p.asMemory order) hfile
      exact (judge_returns_iff hauthentic).mp (hreturns p hread)
  · rintro ⟨hcut, hprint⟩
    by_cases hcomplete : ∃ p : Package, p.toBytes order <+: file
    · rcases hcomplete with ⟨p, hfile⟩
      simp only [fun memory => readPackage_of_prefix memory hfile]
      constructor
      · rcases exitCode_of_printable fun hauthentic => hprint p hauthentic hfile with
          ⟨code, hcode⟩
        exact ⟨code, fun _ => hcode⟩
      · intro _ outcome houtcome hexit
        exact vouchesForFile_of_prefix hfile (authentic_of_judge houtcome (Or.inl hexit))
          houtcome
    · have hforged : ∀ memory, ¬(readPackage order memory file).Authentic valid pkey := by
        intro memory hauthentic
        exact hcut _ hauthentic (cutShort_readPackage fun hfile => hcomplete ⟨_, hfile⟩)
      constructor
      · exact ⟨1, fun memory => exitCode_of_not_authentic (hforged memory)⟩
      · intro memory outcome houtcome hexit
        exact absurd (authentic_of_judge houtcome (Or.inl hexit)) (hforged memory)

/-- The sample package without its payload: memory decides. -/
theorem truncated_sample_depends_on_memory :
    let file := (relabelledPackage.toBytes .little).take 138
    exitCode (verifyFirmware (exactScheme sampleFwData sampleSignature) .little .success
        clearMemory (some (some ())) (some file)) = .ok 1 ∧
      exitCode (verifyFirmware (exactScheme sampleFwData sampleSignature) .little .success
        (relabelledPackage.asMemory .little) (some (some ())) (some file)) = .ok 0 := by
  decide +kernel

end AutomotiveSecurity.CodeSigning
