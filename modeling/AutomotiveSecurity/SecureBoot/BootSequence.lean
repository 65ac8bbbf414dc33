import AutomotiveSecurity.Foundations.Prefix
import AutomotiveSecurity.SecureBoot.BootStage

/-!
# The boot sequence

{lit}`main` of {lit}`secure_boot.c` verifies a stage before it runs it and stops at the
first one that fails.  The signature of a stage covers its image and no name, so what
the chain vouches for is that every image that runs was signed, not where it runs.

Main results:

- Theorem {lit}`executed_bootSlotsUnder`: the stages that run when each check has failures of
  its own.
- Theorems {lit}`bootSlots_of_calls` and {lit}`bootSlots_eq`: the stages that run are those
  before the first one that fails verification, with and without failing calls.
- Theorem {lit}`slot_executed_iff_signed`: a slot is executed exactly if it and all slots
  before it hold an image with its own signature.

Current gaps:

- The tampering scenario at the end of {lit}`main` is left to {lit}`SecureBoot.Manufacture`.
-/

namespace AutomotiveSecurity.SecureBoot

open Memory OpenSSL Prefix

/-- The stages that were executed, in order, and the exit code. -/
structure Boot where
  executed : List BootStage
  exitCode : Int
deriving DecidableEq, Repr

section Sequence

variable {κ : Type*} (valid : SignatureScheme κ) (calls : DigestVerifyCalls)
  (rootKey : Option κ)

/-- A slot to boot: which calls of its check fail, the name it is announced with, and what
it holds. -/
structure Slot where
  calls : DigestVerifyCalls
  stageName : String
  stage : BootStage

/-- The signature check of the slot's content returns 1. -/
def Slot.Verified (slot : Slot) : Prop :=
  digestVerify valid slot.calls rootKey slot.stage.image slot.stage.sig = 1

instance (slot : Slot) : Decidable (slot.Verified valid rootKey) :=
  inferInstanceAs (Decidable (_ = _))

/-- Verify and execute one stage after the other, each check with failures of its own;
{lit}`goto boot_fail` at the first that is not verified. -/
def bootSlotsUnder : List Slot → Except Fault Boot
  | [] => .ok { executed := [], exitCode := 0 }
  | slot :: slots => do
      let verified ← verifyStage valid slot.calls rootKey slot.stageName slot.stage
      if verified = 0 then
        return { executed := [], exitCode := 1 }
      else
        let boot ← bootSlotsUnder slots
        return { boot with executed := slot.stage :: boot.executed }

/-- The same when all checks share one pattern of failures. -/
def bootSlots (slots : List (String × BootStage)) : Except Fault Boot :=
  bootSlotsUnder valid rootKey (slots.map fun slot => ⟨calls, slot.1, slot.2⟩)

/-- The boot code of {lit}`main` for the contents of its three slots. -/
def bootSequence (stage1 stage2 stage3 : BootStage) : Except Fault Boot :=
  bootSlots valid calls rootKey [("Stage1", stage1), ("Stage2", stage2), ("Kernel", stage3)]

variable {valid rootKey} in
/-- A check returns 1 or 0. -/
theorem verifyStage_slot {slot : Slot} (hfits : slot.stage.Fits) :
    verifyStage valid slot.calls rootKey slot.stageName slot.stage =
      .ok (if slot.Verified valid rootKey then 1 else 0) :=
  verifyStage_of_calls valid slot.calls rootKey slot.stageName hfits

variable {valid rootKey} in
/-- The stages that run are those before the first whose check does not return 1, and the
exit code is 0 if there is none. -/
theorem executed_bootSlotsUnder {slots : List Slot} (hfits : ∀ slot ∈ slots, slot.stage.Fits) :
    bootSlotsUnder valid rootKey slots =
      .ok
        { executed := (slots.takeWhile fun slot => slot.Verified valid rootKey).map Slot.stage
          exitCode := if ∀ slot ∈ slots, slot.Verified valid rootKey then 0 else 1 } := by
  induction slots with
  | nil => rfl
  | cons slot slots ih =>
      have hverify : verifyStage valid slot.calls rootKey slot.stageName slot.stage = _ :=
        verifyStage_slot (hfits slot List.mem_cons_self)
      have hrest := ih fun other hother => hfits other (List.mem_cons_of_mem _ hother)
      by_cases hverified : slot.Verified valid rootKey
      · simp [bootSlotsUnder, hverify, hverified, hrest, bind, Except.bind, pure, Except.pure]
      · simp [bootSlotsUnder, hverify, hverified, bind, Except.bind, pure, Except.pure]

/-- With one pattern of failures for all checks, the stages that run are those before the first
whose signature check does not return 1. -/
theorem bootSlots_of_calls {slots : List (String × BootStage)}
    (hfits : ∀ slot ∈ slots, slot.2.Fits) :
    ∃ boot, bootSlots valid calls rootKey slots = .ok boot ∧
      boot.executed = (slots.map Prod.snd).takeWhile fun stage =>
        digestVerify valid calls rootKey stage.image stage.sig = 1 := by
  refine ⟨_, executed_bootSlotsUnder ?_, ?_⟩
  · intro slot hslot
    rcases List.mem_map.mp hslot with ⟨entry, hentry, rfl⟩
    exact hfits entry hentry
  · show ((slots.map _).takeWhile _).map Slot.stage = _
    rw [List.takeWhile_map, List.map_map, List.takeWhile_map]
    rfl

/-- Without a failing call the stages that run are the verified ones before the first
that is not. -/
theorem bootSlots_eq (root : κ) {slots : List (String × BootStage)}
    (hfits : ∀ slot ∈ slots, slot.2.Fits) :
    ∃ boot, bootSlots valid .success (some root) slots = .ok boot ∧
      boot.executed =
        (slots.map Prod.snd).takeWhile fun stage => valid root stage.image stage.sig := by
  rcases bootSlots_of_calls valid .success (some root) hfits with ⟨boot, hboot, hexecuted⟩
  simp only [digestVerify_success_some_iff, Bool.decide_eq_true] at hexecuted
  exact ⟨boot, hboot, hexecuted⟩

end Sequence

/-! ## Signed records in slots -/

/-- The slot holds the data of one of the records and the signature of one of them. -/
structure AssignedFrom (records : List BootStage) (slot : BootStage) : Prop where
  data_from : ∃ r ∈ records, slot.data = r.data ∧ slot.dataLen = r.dataLen
  signature_from : ∃ r ∈ records, slot.signature = r.signature ∧ slot.sigLen = r.sigLen

/-- The slot holds an image together with the signature that was made of it. -/
def HoldsSigned (records : List BootStage) (slot : BootStage) : Prop :=
  ∃ r ∈ records, slot.image = r.image ∧ slot.sig = r.sig

theorem AssignedFrom.fits {records : List BootStage} {slot : BootStage}
    (hrecords : ∀ r ∈ records, r.Fits) (hslot : AssignedFrom records slot) : slot.Fits := by
  rcases hslot.data_from with ⟨r, hr, -, hdataLen⟩
  rcases hslot.signature_from with ⟨r', hr', -, hsigLen⟩
  exact ⟨hdataLen ▸ (hrecords r hr).1, hsigLen ▸ (hrecords r' hr').2⟩

/-- Let {lit}`records` be stages signed by an ideal scheme, and let each slot hold the data
of one record and the signature of one.  Then the boot sequence returns, and it executes
slot {lit}`k` if and only if that slot and every slot before it hold an image with its own
signature.  The stage an image was signed for plays no part. -/
theorem slot_executed_iff_signed {κ : Type*} (valid : SignatureScheme κ)
    (sign : List UInt8 → List UInt8) (root : κ) (records : List BootStage)
    (hsigned : ∀ r ∈ records, ∃ stage, signStage sign stage = .ok r)
    (hideal : ∀ m s, valid root m s = true ↔ ∃ r ∈ records, m = r.image ∧ s = r.sig)
    (stage1 stage2 stage3 : BootStage)
    (hassigned : ∀ slot ∈ [stage1, stage2, stage3], AssignedFrom records slot) :
    ∃ boot, bootSequence valid .success (some root) stage1 stage2 stage3 = .ok boot ∧
      ∀ (k : Nat) slot, [stage1, stage2, stage3][k]? = some slot →
        (boot.executed[k]? = some slot ↔
          ∀ j ≤ k, ∀ earlier, [stage1, stage2, stage3][j]? = some earlier →
            HoldsSigned records earlier) := by
  have hrecords : ∀ r ∈ records, r.Fits := by
    intro r hr
    rcases hsigned r hr with ⟨stage, hstage⟩
    exact (signStage_ok hstage).1
  have hfits : ∀ slot ∈ [("Stage1", stage1), ("Stage2", stage2), ("Kernel", stage3)],
      slot.2.Fits := by
    intro slot hslot
    exact (hassigned slot.2 (List.mem_map_of_mem hslot)).fits hrecords
  rcases bootSlots_eq valid root hfits with ⟨boot, hboot, hexecuted⟩
  refine ⟨boot, hboot, ?_⟩
  intro k slot hslot
  rw [hexecuted, List.map_cons, List.map_cons, List.map_cons, List.map_nil,
    getElem?_takeWhile_iff hslot]
  simp only [hideal]
  rfl

/-! ## The stages of the simulation -/

/-- {lit}`"BOOTLOADER_STAGE1_v1.0.0_CODE"`. -/
def stage1Image : List UInt8 :=
  [0x42, 0x4F, 0x4F, 0x54, 0x4C, 0x4F, 0x41, 0x44, 0x45, 0x52, 0x5F, 0x53, 0x54, 0x41,
   0x47, 0x45, 0x31, 0x5F, 0x76, 0x31, 0x2E, 0x30, 0x2E, 0x30, 0x5F, 0x43, 0x4F, 0x44,
   0x45]

/-- {lit}`"BOOTLOADER_STAGE2_v2.0.0_CODE"`. -/
def stage2Image : List UInt8 :=
  [0x42, 0x4F, 0x4F, 0x54, 0x4C, 0x4F, 0x41, 0x44, 0x45, 0x52, 0x5F, 0x53, 0x54, 0x41,
   0x47, 0x45, 0x32, 0x5F, 0x76, 0x32, 0x2E, 0x30, 0x2E, 0x30, 0x5F, 0x43, 0x4F, 0x44,
   0x45]

/-- {lit}`"OS_KERNEL_v3.0.0_IMAGE_CODE_XYZ"`. -/
def kernelImage : List UInt8 :=
  [0x4F, 0x53, 0x5F, 0x4B, 0x45, 0x52, 0x4E, 0x45, 0x4C, 0x5F, 0x76, 0x33, 0x2E, 0x30,
   0x2E, 0x30, 0x5F, 0x49, 0x4D, 0x41, 0x47, 0x45, 0x5F, 0x43, 0x4F, 0x44, 0x45, 0x5F,
   0x58, 0x59, 0x5A]

/-- Signatures of the three images under one root key. -/
def rootSign : List UInt8 → List UInt8 := fun message =>
  if message = stage1Image then
    [0x30, 0x46, 0x02, 0x21, 0x00, 0xDE, 0x05, 0x3C, 0x19, 0x16, 0x79, 0x76, 0x8C, 0x68,
     0xAD, 0xC5, 0x1E, 0x27, 0x27, 0xCE, 0x82, 0x43, 0x25, 0x92, 0x31, 0xE1, 0x58, 0x75,
     0xA2, 0x44, 0x43, 0x5E, 0x77, 0x72, 0xCD, 0xA3, 0xD1, 0x02, 0x21, 0x00, 0x83, 0xA6,
     0x89, 0x49, 0x89, 0xEB, 0x4F, 0x99, 0x17, 0x31, 0x56, 0xF2, 0x87, 0x41, 0xF3, 0xF8,
     0x10, 0xA0, 0x6A, 0x54, 0xED, 0x2C, 0x00, 0x8D, 0x1C, 0x28, 0x87, 0xF4, 0x90, 0xCB,
     0xE7, 0xBF]
  else if message = stage2Image then
    [0x30, 0x45, 0x02, 0x21, 0x00, 0xB1, 0x91, 0x96, 0xDF, 0x03, 0x1D, 0x6B, 0x27, 0x0E,
     0xD2, 0xAD, 0xBD, 0x04, 0x02, 0xD8, 0xA6, 0xCB, 0xB1, 0x76, 0x5C, 0x34, 0x29, 0x2D,
     0x34, 0x88, 0x2E, 0x59, 0x14, 0xA7, 0x08, 0x95, 0x41, 0x02, 0x20, 0x4B, 0xAE, 0xA7,
     0x63, 0xCD, 0xF7, 0x18, 0xD2, 0xBB, 0xAB, 0x3E, 0x56, 0x69, 0x4F, 0x60, 0x62, 0x6E,
     0xAB, 0x2C, 0x6F, 0x5C, 0x4F, 0x13, 0x47, 0x89, 0x45, 0x3A, 0xA1, 0x87, 0x29, 0x8D,
     0x78]
  else if message = kernelImage then
    [0x30, 0x44, 0x02, 0x20, 0x07, 0x1E, 0xAA, 0x27, 0x51, 0x4F, 0xC5, 0x5E, 0x9A, 0x24,
     0x09, 0xC0, 0x9D, 0x04, 0x40, 0xBA, 0xF9, 0xEB, 0xED, 0x64, 0x70, 0x51, 0xED, 0x79,
     0x27, 0x73, 0x63, 0x8B, 0x7F, 0x62, 0x9F, 0xC3, 0x02, 0x20, 0x39, 0x98, 0xC9, 0xB2,
     0xD0, 0xA3, 0x33, 0x77, 0x21, 0xAE, 0x04, 0x6E, 0xBD, 0xA6, 0x52, 0x5F, 0xAE, 0x9D,
     0xBA, 0x93, 0xCD, 0x46, 0x03, 0x5A, 0xB2, 0xAF, 0x51, 0x2C, 0x7F, 0x51, 0x04, 0x8E]
  else []

/-- A stage with the given name and image, before and after {lit}`sign_stage`. -/
def simulationStage (name image signature : List UInt8) : BootStage where
  name := Buffer.initialised 32 name
  data := Buffer.initialised 256 image
  dataLen := UInt64.ofNat image.length
  signature := Buffer.initialised 128 signature
  sigLen := UInt64.ofNat signature.length

/-- {lit}`"Stage1_Bootloader"`. -/
def stage1Name : List UInt8 :=
  [0x53, 0x74, 0x61, 0x67, 0x65, 0x31, 0x5F, 0x42, 0x6F, 0x6F, 0x74, 0x6C, 0x6F, 0x61,
   0x64, 0x65, 0x72]

/-- {lit}`"Stage2_Bootloader"`. -/
def stage2Name : List UInt8 :=
  [0x53, 0x74, 0x61, 0x67, 0x65, 0x32, 0x5F, 0x42, 0x6F, 0x6F, 0x74, 0x6C, 0x6F, 0x61,
   0x64, 0x65, 0x72]

/-- {lit}`"OS_Kernel"`. -/
def kernelName : List UInt8 :=
  [0x4F, 0x53, 0x5F, 0x4B, 0x65, 0x72, 0x6E, 0x65, 0x6C]

/-- {lit}`stage1` of the simulation, signed. -/
def stage1Record : BootStage :=
  simulationStage stage1Name stage1Image (rootSign stage1Image)

/-- {lit}`stage2` of the simulation, signed. -/
def stage2Record : BootStage :=
  simulationStage stage2Name stage2Image (rootSign stage2Image)

/-- {lit}`stage3` of the simulation, signed. -/
def kernelRecord : BootStage :=
  simulationStage kernelName kernelImage (rootSign kernelImage)

/-- The three signed records. -/
def simulationRecords : List BootStage :=
  [stage1Record, stage2Record, kernelRecord]

/-- The scheme that has signed the three records and nothing else. -/
def simulationScheme : SignatureScheme Unit :=
  tableScheme (simulationRecords.map fun r => (r.image, r.sig))

theorem simulationScheme_iff (m s : List UInt8) :
    simulationScheme () m s = true ↔ ∃ r ∈ simulationRecords, m = r.image ∧ s = r.sig := by
  refine tableScheme_iff.trans (List.mem_map.trans ?_)
  constructor
  · rintro ⟨r, hr, hpair⟩
    exact ⟨r, hr, (congrArg Prod.fst hpair).symm, (congrArg Prod.snd hpair).symm⟩
  · rintro ⟨r, hr, rfl, rfl⟩
    exact ⟨r, hr, rfl⟩

theorem simulationRecords_signed :
    ∀ r ∈ simulationRecords, ∃ stage, signStage rootSign stage = .ok r := by
  intro r hr
  simp only [simulationRecords, List.mem_cons, List.not_mem_nil, or_false] at hr
  rcases hr with rfl | rfl | rfl
  · exact ⟨simulationStage stage1Name stage1Image [], by decide +kernel⟩
  · exact ⟨simulationStage stage2Name stage2Image [], by decide +kernel⟩
  · exact ⟨simulationStage kernelName kernelImage [], by decide +kernel⟩

theorem simulation_boots :
    ∃ boot, bootSequence simulationScheme .success (some ()) stage1Record stage2Record
        kernelRecord = .ok boot ∧
      boot.executed[2]? = some kernelRecord := by
  have hheld : ∀ r ∈ simulationRecords, AssignedFrom simulationRecords r :=
    fun r hr => ⟨⟨r, hr, rfl, rfl⟩, ⟨r, hr, rfl, rfl⟩⟩
  rcases slot_executed_iff_signed simulationScheme rootSign () simulationRecords
    simulationRecords_signed simulationScheme_iff stage1Record stage2Record kernelRecord
    hheld with ⟨boot, hboot, hexecuted⟩
  refine ⟨boot, hboot, (hexecuted 2 kernelRecord rfl).mpr ?_⟩
  intro j _ earlier hearlier
  exact ⟨earlier, List.mem_of_getElem? hearlier, rfl, rfl⟩

/-- With the records of the first and the last stage exchanged, the kernel image runs in
the first slot. -/
theorem kernel_executed_in_first_slot :
    (∀ r ∈ simulationRecords, ∃ stage, signStage rootSign stage = .ok r) ∧
      (∀ m s, simulationScheme () m s = true ↔
        ∃ r ∈ simulationRecords, m = r.image ∧ s = r.sig) ∧
        kernelRecord.name ≠ stage1Record.name ∧ kernelRecord.image ≠ stage1Record.image ∧
          ∃ boot, bootSequence simulationScheme .success (some ()) kernelRecord stage2Record
              stage1Record = .ok boot ∧
            boot.executed[0]? = some kernelRecord := by
  refine ⟨simulationRecords_signed, simulationScheme_iff, by decide +kernel,
    by decide +kernel, { executed := [kernelRecord, stage2Record, stage1Record], exitCode := 0 },
    by decide +kernel, rfl⟩

end AutomotiveSecurity.SecureBoot
