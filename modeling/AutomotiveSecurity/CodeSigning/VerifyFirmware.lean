import AutomotiveSecurity.CodeSigning.Package
import AutomotiveSecurity.OpenSSL.DigestVerify

/-!
# The firmware verification tool

{lit}`main` of {lit}`verify_firmware.c`: it reads a header and the two sections the
header announces, checks the signature of the payload and exits.  The results of the
three reads are ignored, so what the objects held before takes part in the run.

Main results:

- Theorem {lit}`verifyFirmware_eq`: a run judges the package that is in memory after
  the reads.
- Theorems {lit}`readPackage_of_prefix`, {lit}`readPackage_of_memory` and
  {lit}`take_prefix_readPackage`: which package that is, for files that are long
  enough and for files that are not.
- Theorem {lit}`judge_exits_zero_iff`: when the judgement is favourable, for every pattern
  of failing library calls.
- Theorems {lit}`judge_of_authentic` and {lit}`judge_of_not_authentic`: the judgement on
  a package when no library call fails; {lit}`judge_returns_iff`: when there is none.

Current gaps:

- Both {lit}`malloc` calls succeed, and no read reports an error.
- Of the printed texts only the data in them is kept.
-/

namespace AutomotiveSecurity.CodeSigning

open HostInteger Memory OpenSSL Prefix

/-! ## The tool -/

/-- What the header object and the two blocks from {lit}`malloc` hold before the reads. -/
structure StaleMemory where
  header : Buffer sizeofFirmwareHeader
  signature : (n : Nat) → Buffer n
  payload : (n : Nat) → Buffer n

/-- The bytes handed to a digest call. -/
inductive DigestCall
  | update (data : List UInt8)
  | final (signature : List UInt8)
deriving DecidableEq, Repr

/-- What the tool tells its user at the end. -/
inductive Report
  | keyFileMissing
  | firmwareFileMissing
  | badMagic
  | genuine (content : List UInt8)
  | tampered
deriving DecidableEq, Repr

/-- The exit code, the header information shown, the digest calls made, and the report. -/
structure Outcome where
  exitCode : Int
  header : Option FirmwareHeader
  digestCalls : List DigestCall
  report : Report
deriving DecidableEq, Repr

section Tool

variable {κ : Type*} (valid : SignatureScheme κ) (order : ByteOrder)
  (calls : DigestVerifyCalls)

/-- Read the header. -/
def readHeader (memory : StaleMemory) (fw : List UInt8) : FirmwareHeader × List UInt8 :=
  let header := fread memory.header fw
  (FirmwareHeader.ofBytes order header.1, header.2)

/-- Read the signature and the payload. -/
def readSections (memory : StaleMemory) (header : FirmwareHeader) (fw : List UInt8) :
    Package :=
  let signature := fread (memory.signature header.sigLength.toNat) fw
  let payload := fread (memory.payload header.payloadSize.toNat) signature.2
  { header := header
    signature := signature.1.bytes
    payload := payload.1.bytes
    signature_length := signature.1.size_eq
    payload_length := payload.1.size_eq }

/-- Check the signature and report, once everything has been read. -/
def checkPackage (pkey : Option κ) (p : Package) : Except Fault Outcome := do
  let ctx := evpMdCtxNew
  let ctx := evpDigestVerifyInit calls.init ctx pkey
  let data ← load p.payload p.header.payloadSize.toNat
  let ctx := evpDigestVerifyUpdate calls.update ctx data
  let sig ← load p.signature p.header.sigLength.toNat
  let result := evpDigestVerifyFinal valid calls.final ctx sig
  let report ←
    if result = 1 then do
      -- `header.payload_size` is passed where `%.*s` takes an `int`.
      let content ← printfString p.header.payloadSize.toInt32.toInt p.payload
      pure (.genuine content)
    else
      pure .tampered
  return {
    exitCode := if result = 1 then 0 else 1
    header := some p.header
    digestCalls := [.update data, .final sig]
    report := report }

/-- {lit}`main` of {lit}`verify_firmware.c`.  {lit}`keyFile` is what
{lit}`PEM_read_PUBKEY` makes of the key file and {lit}`fwFile` the content of the
firmware file, if these can be opened. -/
def verifyFirmware (memory : StaleMemory) (keyFile : Option (Option κ))
    (fwFile : Option (List UInt8)) : Except Fault Outcome :=
  match keyFile with
  | none => .ok { exitCode := 1, header := none, digestCalls := [], report := .keyFileMissing }
  | some pkey =>
      match fwFile with
      | none =>
          .ok
            { exitCode := 1
              header := none
              digestCalls := []
              report := .firmwareFileMissing }
      | some fw => do
          let (header, fw) := readHeader order memory fw
          let difference ← memcmp header.magic.bytes fwsign 6
          if difference ≠ 0 then
            return {
              exitCode := 1
              header := some header
              digestCalls := []
              report := .badMagic }
          else
            checkPackage valid calls pkey (readSections memory header fw)

end Tool

/-! ## The package in memory -/

section Reading

variable {order : ByteOrder}

/-- The package that is in memory after the three reads. -/
def readPackage (order : ByteOrder) (memory : StaleMemory) (file : List UInt8) : Package :=
  readSections memory (readHeader order memory file).1 (readHeader order memory file).2

@[simp]
theorem readPackage_header (memory : StaleMemory) (file : List UInt8) :
    (readPackage order memory file).header = (readHeader order memory file).1 :=
  rfl

/-- A package is determined by its header and the contents of the two blocks. -/
theorem readSections_eq {memory : StaleMemory} {p : Package} {fw : List UInt8}
    (hsignature : (fread (memory.signature p.header.sigLength.toNat) fw).1 =
      ⟨p.signature, p.signature_length⟩)
    (hpayload : (fread (memory.payload p.header.payloadSize.toNat)
      (fw.drop p.header.sigLength.toNat)).1 = ⟨p.payload, p.payload_length⟩) :
    readSections memory p.header fw = p := by
  apply Package.ext
  · rfl
  · exact congrArg Buffer.bytes hsignature
  · exact congrArg Buffer.bytes hpayload

/-- A file that starts with a package is read as that package, whatever was in memory. -/
theorem readPackage_of_prefix (memory : StaleMemory) {p : Package} {file : List UInt8}
    (hfile : p.toBytes order <+: file) : readPackage order memory file = p := by
  unfold Package.toBytes at hfile
  rw [List.append_assoc] at hfile
  have hheader : (readHeader order memory file).1 = p.header := by
    have hread := fread_of_prefix memory.header ((List.prefix_append _ _).trans hfile)
    rw [readHeader, hread, FirmwareHeader.ofBytes_toBytes]
  have hsections := prefix_drop_of_append (Buffer.size_eq _) hfile
  have hpayload := prefix_drop_of_append p.signature_length hsections
  unfold readPackage
  rw [hheader]
  apply readSections_eq
  · exact fread_of_prefix _ ((List.prefix_append _ _).trans hsections)
  · exact fread_of_prefix _ hpayload

/-- Memory that happens to hold a given package already. -/
def Package.asMemory (order : ByteOrder) (p : Package) : StaleMemory where
  header := p.header.toBytes order
  signature n :=
    if h : p.signature.length = n then ⟨p.signature, h⟩ else Buffer.zero n
  payload n :=
    if h : p.payload.length = n then ⟨p.payload, h⟩ else Buffer.zero n

theorem Package.asMemory_signature (p : Package) :
    (p.asMemory order).signature p.header.sigLength.toNat =
      ⟨p.signature, p.signature_length⟩ :=
  dif_pos p.signature_length

theorem Package.asMemory_payload (p : Package) :
    (p.asMemory order).payload p.header.payloadSize.toNat =
      ⟨p.payload, p.payload_length⟩ :=
  dif_pos p.payload_length

/-- If memory holds a package already, a file that is cut short anywhere in that package
is read as the whole of it. -/
theorem readPackage_of_memory {p : Package} {file : List UInt8}
    (hfile : file <+: p.toBytes order) :
    readPackage order (p.asMemory order) file = p := by
  unfold Package.toBytes at hfile
  rw [List.append_assoc] at hfile
  have hheaderLength : (p.header.toBytes order).bytes.length = sizeofFirmwareHeader :=
    Buffer.size_eq _
  have hheader : (readHeader order (p.asMemory order) file).1 = p.header := by
    have hread : (fread (p.header.toBytes order) file).1 = p.header.toBytes order := by
      apply fread_eq_self
      have htake := hfile.take sizeofFirmwareHeader
      rwa [List.take_left' hheaderLength] at htake
    rw [readHeader, Package.asMemory, hread, FirmwareHeader.ofBytes_toBytes]
  have hsections := hfile.drop sizeofFirmwareHeader
  rw [List.drop_left' hheaderLength] at hsections
  have hpayload := hsections.drop p.header.sigLength.toNat
  rw [List.drop_left' p.signature_length] at hpayload
  unfold readPackage
  rw [hheader]
  apply readSections_eq
  · rw [Package.asMemory_signature]
    apply fread_eq_self
    have htake := hsections.take p.header.sigLength.toNat
    rwa [List.take_left' p.signature_length] at htake
  · rw [Package.asMemory_payload]
    apply fread_eq_self
    exact (List.take_prefix _ _).trans hpayload

/-- The bytes the file still had are at the front of the package in memory. -/
theorem take_prefix_readPackage (memory : StaleMemory) (file : List UInt8) :
    file.take (readPackage order memory file).size <+:
      (readPackage order memory file).toBytes order := by
  let header := (readHeader order memory file).1
  have hsize : (readPackage order memory file).size =
      sizeofFirmwareHeader + header.sigLength.toNat + header.payloadSize.toNat := by
    rw [Package.size, Package.signature_length, Package.payload_length]
    rfl
  have hheader : file.take sizeofFirmwareHeader <+: (header.toBytes order).bytes := by
    show _ <+: ((FirmwareHeader.ofBytes order _).toBytes order).bytes
    rw [FirmwareHeader.toBytes_ofBytes]
    exact take_prefix_fread memory.header file
  have hsections := take_add_prefix (Buffer.size_eq _)
    (take_prefix_fread (memory.signature header.sigLength.toNat)
      (file.drop sizeofFirmwareHeader))
    (take_prefix_fread (memory.payload header.payloadSize.toNat)
      ((file.drop sizeofFirmwareHeader).drop header.sigLength.toNat))
  have hall := take_add_prefix (Buffer.size_eq _) hheader hsections
  rw [hsize, Nat.add_assoc, Package.toBytes, List.append_assoc]
  exact hall

end Reading

/-! ## The judgement on a package -/

section Judgement

variable {κ : Type*} (valid : SignatureScheme κ) (calls : DigestVerifyCalls)

/-- What becomes of a package in memory: the magic test, then the signature check. -/
def judge (pkey : Option κ) (p : Package) : Except Fault Outcome :=
  if p.header.magic.bytes.take 6 = fwsign.take 6 then
    checkPackage valid calls pkey p
  else
    .ok { exitCode := 1, header := some p.header, digestCalls := [], report := .badMagic }

/-- The right magic, and a valid signature of the payload. -/
def Package.Authentic (pkey : Option κ) (p : Package) : Prop :=
  p.header.magic.bytes.take 6 = fwsign.take 6 ∧
    ∃ key, pkey = some key ∧ valid key p.payload p.signature = true

/-- The payload can be printed with {lit}`%.*s` and its own size as precision. -/
def Package.Printable (p : Package) : Prop :=
  p.payload.length < 2 ^ 31 ∨ 0 ∈ p.payload

variable {valid calls}

/-- A run judges the package that is in memory after the reads. -/
theorem verifyFirmware_eq {order : ByteOrder} (memory : StaleMemory) (pkey : Option κ)
    (file : List UInt8) :
    verifyFirmware valid order calls memory (some pkey) (some file) =
      judge valid calls pkey (readPackage order memory file) := by
  rcases memcmp_eq_zero_iff (readPackage order memory file).header.magic.bytes fwsign 6
    (by simp) (by decide) with ⟨difference, hmemcmp, hzero⟩
  rw [readPackage_header] at hmemcmp
  simp only [verifyFirmware, hmemcmp, bind, Except.bind]
  unfold judge
  by_cases hmagic : difference = 0
  · rw [if_pos (hzero.mp hmagic), if_neg (not_not.mpr hmagic)]
    rfl
  · rw [if_neg fun h => hmagic (hzero.mpr h), if_pos hmagic]
    rfl

/-- A package whose signature check returns 1 is reported as genuine once its payload has
been printed. -/
theorem checkPackage_of_accepted {pkey : Option κ} {p : Package}
    (haccepted : digestVerify valid calls pkey p.payload p.signature = 1) :
    checkPackage valid calls pkey p =
      (printfString p.header.payloadSize.toInt32.toInt p.payload).map fun content =>
        { exitCode := 0
          header := some p.header
          digestCalls := [.update p.payload, .final p.signature]
          report := .genuine content } := by
  have hdata := load_whole p.payload_length
  have hsig := load_whole p.signature_length
  unfold digestVerify at haccepted
  unfold checkPackage
  simp only [hdata, hsig, bind, Except.bind, haccepted, ↓reduceIte]
  cases printfString p.header.payloadSize.toInt32.toInt p.payload <;> rfl

/-- Any other package is reported as tampered with. -/
theorem checkPackage_of_refused {pkey : Option κ} {p : Package}
    (hrefused : digestVerify valid calls pkey p.payload p.signature ≠ 1) :
    checkPackage valid calls pkey p =
      .ok
        { exitCode := 1
          header := some p.header
          digestCalls := [.update p.payload, .final p.signature]
          report := .tampered } := by
  have hdata := load_whole p.payload_length
  have hsig := load_whole p.signature_length
  unfold digestVerify at hrefused
  unfold checkPackage
  simp only [hdata, hsig, bind, Except.bind, if_neg hrefused, pure, Except.pure]

/-- The payload can be printed exactly if printing it stays inside its block. -/
theorem Package.printable_iff {p : Package} :
    p.Printable ↔
      ∃ content, printfString p.header.payloadSize.toInt32.toInt p.payload = .ok content :=
  (printfString_of_uint32 p.payload_length).symm

/-- The judgement on a package ends with 0 exactly if it has the right magic, its signature
check returns 1, and its payload can be printed. -/
theorem judge_exits_zero_iff {pkey : Option κ} {p : Package} :
    (∃ outcome, judge valid calls pkey p = .ok outcome ∧ outcome.exitCode = 0) ↔
      p.header.magic.bytes.take 6 = fwsign.take 6 ∧ p.Printable ∧
        digestVerify valid calls pkey p.payload p.signature = 1 := by
  unfold judge
  by_cases hmagic : p.header.magic.bytes.take 6 = fwsign.take 6
  · rw [if_pos hmagic]
    by_cases hresult : digestVerify valid calls pkey p.payload p.signature = 1
    · rw [checkPackage_of_accepted hresult, Package.printable_iff]
      cases printfString p.header.payloadSize.toInt32.toInt p.payload <;>
        simp [Except.map, hmagic, hresult]
    · rw [checkPackage_of_refused hresult]
      simp [hresult]
  · rw [if_neg hmagic]
    simp [hmagic]

/-- Without a failing call an authentic package is reported as genuine once its payload
has been printed. -/
theorem judge_of_authentic {pkey : Option κ} {p : Package}
    (hauthentic : p.Authentic valid pkey) :
    judge valid .success pkey p =
      (printfString p.header.payloadSize.toInt32.toInt p.payload).map fun content =>
        { exitCode := 0
          header := some p.header
          digestCalls := [.update p.payload, .final p.signature]
          report := .genuine content } := by
  rw [judge, if_pos hauthentic.1,
    checkPackage_of_accepted (digestVerify_success_eq_one_iff.mpr hauthentic.2)]

/-- Without a failing call any other package makes the tool exit with 1. -/
theorem judge_of_not_authentic {pkey : Option κ} {p : Package}
    (hauthentic : ¬p.Authentic valid pkey) :
    ∃ outcome, judge valid .success pkey p = .ok outcome ∧ outcome.exitCode = 1 ∧
      ∀ content, outcome.report ≠ .genuine content := by
  unfold judge
  by_cases hmagic : p.header.magic.bytes.take 6 = fwsign.take 6
  · have hrefused : digestVerify valid .success pkey p.payload p.signature ≠ 1 :=
      fun h => hauthentic ⟨hmagic, digestVerify_success_eq_one_iff.mp h⟩
    rw [if_pos hmagic, checkPackage_of_refused hrefused]
    exact ⟨_, rfl, rfl, by simp⟩
  · rw [if_neg hmagic]
    exact ⟨_, rfl, rfl, by simp⟩

/-- An authentic package has an exit code exactly if it can be printed. -/
theorem judge_returns_iff {pkey : Option κ} {p : Package}
    (hauthentic : p.Authentic valid pkey) :
    (∃ outcome, judge valid .success pkey p = .ok outcome) ↔ p.Printable := by
  rw [judge_of_authentic hauthentic, Package.printable_iff]
  cases printfString p.header.payloadSize.toInt32.toInt p.payload <;> simp [Except.map]

/-- If it has one, it is 0, and what was checked is the package's payload. -/
theorem judge_outcome {pkey : Option κ} {p : Package} {outcome : Outcome}
    (hauthentic : p.Authentic valid pkey)
    (houtcome : judge valid .success pkey p = .ok outcome) :
    outcome.exitCode = 0 ∧ outcome.header = some p.header ∧
      outcome.digestCalls = [.update p.payload, .final p.signature] := by
  rw [judge_of_authentic hauthentic] at houtcome
  cases hcontent : printfString p.header.payloadSize.toInt32.toInt p.payload with
  | error fault => simp [hcontent, Except.map] at houtcome
  | ok content =>
      simp only [hcontent, Except.map, Except.ok.injEq] at houtcome
      subst houtcome
      exact ⟨rfl, rfl, rfl⟩

/-- Only an authentic package exits with 0 or is reported as genuine. -/
theorem authentic_of_judge {pkey : Option κ} {p : Package} {outcome : Outcome}
    (houtcome : judge valid .success pkey p = .ok outcome)
    (hgenuine : outcome.exitCode = 0 ∨ ∃ content, outcome.report = .genuine content) :
    p.Authentic valid pkey := by
  by_contra hauthentic
  rcases judge_of_not_authentic hauthentic with ⟨other, hother, hcode, hreport⟩
  have hsame : other = outcome := Except.ok.inj (hother.symm.trans houtcome)
  subst hsame
  rcases hgenuine with hzero | ⟨content, hcontent⟩
  · omega
  · exact hreport content hcontent

end Judgement

end AutomotiveSecurity.CodeSigning
