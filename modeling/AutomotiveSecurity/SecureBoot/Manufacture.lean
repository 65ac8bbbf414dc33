import AutomotiveSecurity.OpenSSL.DigestSign
import AutomotiveSecurity.SecureBoot.FaultInjection

/-!
# From manufacture to boot

The whole of {lit}`main` of {lit}`secure_boot.c`: three stages are signed, booted, and booted
again after one of them has been tampered with.  Every library call of the signings and of
the five checks may fail on its own.

Main results:

- Theorem {lit}`signStageUnder_returns`: what a signing leaves behind under failures.
- Theorem {lit}`secureBootMain_iff`: when the system starts, and when the tampering is
  noticed.

Current gaps:

- The printed texts are left out except for the reports of success and of the tampering.
- {lit}`EVP_MD_CTX_new` always succeeds, and an update on a context whose initialisation has
  failed only fails.
-/

namespace AutomotiveSecurity.SecureBoot

open FaultInjection Memory OpenSSL

/-! ## Signing under failures -/

section Signing

variable {signer : Signer}

/-- What {lit}`sign_stage` leaves alone, and what it leaves behind. -/
theorem signStageUnder_returns (hroom : signer.maxSize ≤ 128) {calls : DigestSignCalls}
    {stage : BootStage} (hdata : stage.dataLen.toNat ≤ 256) :
    ∃ signed, signStageUnder signer calls stage = .ok signed ∧ signed.image = stage.image ∧
      signed.dataLen = stage.dataLen ∧ signed.data = stage.data ∧
        (Made signer calls stage.sigLen → signed.Fits ∧
          signed.sig = signer.sign (fed calls.update stage.image)) ∧
        (¬Made signer calls stage.sigLen → signed.signature = stage.signature ∧
          signed.sigLen = announcedSize signer calls stage.sigLen) := by
  have hload : load stage.data.bytes stage.dataLen.toNat = .ok stage.image :=
    load_of_le (by simpa using hdata)
  rcases digestSign_returns calls stage.image stage.signature stage.sigLen hroom (by decide)
    with ⟨after, hafter, hmade, hnot⟩
  refine ⟨{ stage with signature := after.1, sigLen := after.2 }, ?_, rfl, rfl, rfl, ?_, ?_⟩
  · unfold signStageUnder signStageWith
    rw [hload]
    show (digestSign signer calls stage.image stage.signature stage.sigLen >>= _) = _
    rw [hafter]
    rfl
  · intro h
    exact ⟨⟨hdata, (hmade h).1⟩, (hmade h).2⟩
  · intro h
    rw [hnot h]
    exact ⟨rfl, rfl⟩

end Signing

/-! ## Tampering -/

/-- {lit}`stage.data[0] ^= 0xFF`. -/
def BootStage.tampered (stage : BootStage) : BootStage :=
  { stage with
    data :=
      { bytes := stage.data.bytes.modify 0 (· ^^^ 0xFF)
        size_eq := by simp } }

/-- The first byte of the image changes. -/
theorem tampered_image (stage : BootStage) :
    stage.tampered.image = stage.image.modify 0 (· ^^^ 0xFF) := by
  show (stage.data.bytes.modify 0 _).take stage.dataLen.toNat =
    (stage.data.bytes.take stage.dataLen.toNat).modify 0 _
  cases stage.data.bytes with
  | nil => simp
  | cons byte bytes => cases stage.dataLen.toNat <;> simp

/-- So a non-empty image becomes another one. -/
theorem tampered_image_ne {stage : BootStage} (hsome : stage.image ≠ []) :
    stage.tampered.image ≠ stage.image ∧ stage.tampered.image ≠ [] := by
  rw [tampered_image]
  cases himage : stage.image with
  | nil => exact absurd himage hsome
  | cons byte bytes =>
      refine ⟨?_, by simp⟩
      intro hsame
      simp at hsame

/-! ## The simulation -/

/-- Which calls fail: in the three signings, in the three checks of the normal boot, and in
the two checks after the tampering. -/
structure MainCalls where
  sign1 : DigestSignCalls
  sign2 : DigestSignCalls
  sign3 : DigestSignCalls
  boot1 : DigestVerifyCalls
  boot2 : DigestVerifyCalls
  boot3 : DigestVerifyCalls
  demo1 : DigestVerifyCalls
  demo2 : DigestVerifyCalls
deriving DecidableEq, Repr

/-- The stages that were executed in the normal boot and after the tampering, whether the
start of the system and the prevented tampering were reported, and the exit code. -/
structure MainReport where
  executed : List BootStage
  systemStarted : Bool
  executedAgain : List BootStage
  tamperingPrevented : Bool
  exitCode : Int
deriving DecidableEq, Repr

section Simulation

variable {κ : Type*} (valid : SignatureScheme κ) (rootKey : Option κ) (signer : Signer)
  (calls : MainCalls)

/-- The second part of {lit}`main`, after a boot that has succeeded: {lit}`stage2` is
tampered with, and the first two stages are verified again. -/
def tamperingScenario (executed : List BootStage) (stage1 stage2 : BootStage) :
    Except Fault MainReport := do
  let stage2 := stage2.tampered
  let verified ← verifyStage valid calls.demo1 rootKey "Stage1" stage1
  if verified = 0 then
    -- `goto boot_fail_demo`
    return {
      executed := executed
      systemStarted := true
      executedAgain := []
      tamperingPrevented := false
      exitCode := 0 }
  else
    let verified ← verifyStage valid calls.demo2 rootKey "Stage2" stage2
    return {
      executed := executed
      systemStarted := true
      executedAgain := [stage1]
      tamperingPrevented := verified = 0
      exitCode := 0 }

/-- {lit}`main` of {lit}`secure_boot.c` for the three stages it sets up. -/
def secureBootMain (stage1 stage2 stage3 : BootStage) : Except Fault MainReport := do
  let stage1 ← signStageUnder signer calls.sign1 stage1
  let stage2 ← signStageUnder signer calls.sign2 stage2
  let stage3 ← signStageUnder signer calls.sign3 stage3
  let boot ← bootSlotsUnder valid rootKey
    [⟨calls.boot1, "Stage1", stage1⟩, ⟨calls.boot2, "Stage2", stage2⟩,
     ⟨calls.boot3, "Kernel", stage3⟩]
  if boot.exitCode ≠ 0 then
    -- `goto boot_fail`
    return {
      executed := boot.executed
      systemStarted := false
      executedAgain := []
      tamperingPrevented := false
      exitCode := boot.exitCode }
  else
    tamperingScenario valid rootKey calls boot.executed stage1 stage2

variable {valid rootKey calls}

/-- The exit code of the second part is 0; it reports the tampering if the first stage
passes its check and the tampered one does not. -/
theorem tamperingScenario_returns (executed : List BootStage) {stage1 stage2 : BootStage}
    (hfits1 : stage1.Fits) (hfits2 : stage2.Fits) :
    ∃ report, tamperingScenario valid rootKey calls executed stage1 stage2 = .ok report ∧
      report.exitCode = 0 ∧ report.systemStarted = true ∧
        (report.tamperingPrevented = true ↔
          digestVerify valid calls.demo1 rootKey stage1.image stage1.sig = 1 ∧
            ¬digestVerify valid calls.demo2 rootKey stage2.tampered.image stage2.sig = 1) := by
  have hsecond : verifyStage valid calls.demo2 rootKey "Stage2" stage2.tampered = .ok _ :=
    verifyStage_of_calls valid calls.demo2 rootKey "Stage2"
      (show stage2.tampered.Fits from hfits2)
  have hsig : stage2.tampered.sig = stage2.sig := rfl
  unfold tamperingScenario
  rw [verifyStage_of_calls valid calls.demo1 rootKey "Stage1" hfits1]
  by_cases hfirst : digestVerify valid calls.demo1 rootKey stage1.image stage1.sig = 1
  · simp only [hfirst, ↓reduceIte, bind, Except.bind, one_ne_zero, hsecond, hsig]
    refine ⟨_, rfl, rfl, rfl, ?_⟩
    simp
  · simp only [hfirst, ↓reduceIte, bind, Except.bind]
    exact ⟨_, rfl, rfl, rfl, by simp⟩

end Simulation

/-! ## What a check finds -/

/-- A stage as {lit}`main` sets it up: an image, and no signature yet. -/
structure Fresh (stage : BootStage) : Prop where
  data_fits : stage.dataLen.toNat ≤ 256
  image_ne : stage.image ≠ []
  sigLen_eq : stage.sigLen = 0
  signature_eq : stage.signature = Buffer.zero 128

/-- A signature was made at manufacture and checked at boot. -/
def Compared (sign : DigestSignCalls) (verify : DigestVerifyCalls) : Prop :=
  (sign.init = true ∧ sign.size = true ∧ sign.final = true) ∧
    verify.init = true ∧ verify.final = true

/-- The check of a signed stage returns 1 for its own image. -/
def Passes (sign : DigestSignCalls) (verify : DigestVerifyCalls) : Prop :=
  Compared sign verify ∧ sign.update = verify.update

instance (sign : DigestSignCalls) (verify : DigestVerifyCalls) :
    Decidable (Compared sign verify) :=
  inferInstanceAs (Decidable (_ ∧ _))

instance (sign : DigestSignCalls) (verify : DigestVerifyCalls) :
    Decidable (Passes sign verify) :=
  inferInstanceAs (Decidable (_ ∧ _))

/-- Neither end has fed the image to its context. -/
def Unfed (sign : DigestSignCalls) (verify : DigestVerifyCalls) : Prop :=
  Compared sign verify ∧ sign.update = false ∧ verify.update = false

instance (sign : DigestSignCalls) (verify : DigestVerifyCalls) :
    Decidable (Unfed sign verify) :=
  inferInstanceAs (Decidable (_ ∧ _))

/-- Zeros are no signature of anything. -/
def NoStaleSignature {κ : Type*} (valid : SignatureScheme κ) (key : κ) : Prop :=
  ∀ message count, valid key message (List.replicate count 0) = false

section Checks

variable {κ : Type*} {valid : SignatureScheme κ} {key : κ} {signer : Signer}
  {sign : DigestSignCalls} {stage signed : BootStage}

/-- A signer whose signatures count makes none of length 0. -/
theorem maxSize_pos {data : List UInt8} (hideal : IdealFor valid key signer data)
    (hstale : NoStaleSignature valid key) : 0 < signer.maxSize := by
  by_contra hzero
  have hnone : signer.sign [] = [] :=
    List.length_eq_zero_iff.mp (by have hle := signer.sign_le []; omega)
  have hown := (hideal false []).mpr rfl
  rw [fed_false, hnone] at hown
  exact absurd (hown.symm.trans (hstale [] 0)) (by decide)

theorem made_of_fresh (hpos : 0 < signer.maxSize) (hroom : signer.maxSize ≤ 128)
    (hfresh : Fresh stage) :
    Made signer sign stage.sigLen ↔
      sign.init = true ∧ sign.size = true ∧ sign.final = true := by
  have hmax : (UInt64.ofNat signer.maxSize).toNat = signer.maxSize :=
    UInt64.toNat_ofNat_of_lt' (lt_of_le_of_lt hroom (by decide))
  unfold Made announcedSize
  rw [hfresh.sigLen_eq]
  rcases sign with ⟨init, update, size, final⟩
  cases init <;> cases size <;> cases final <;> simp [hmax]
  omega

/-- Without a signature the bytes that count are zeros, and there are at most 128. -/
theorem stale_sig (hroom : signer.maxSize ≤ 128) (hfresh : Fresh stage)
    (hsignature : signed.signature = stage.signature)
    (hsigLen : signed.sigLen = announcedSize signer sign stage.sigLen) :
    signed.sigLen.toNat ≤ 128 ∧ ∃ count, signed.sig = List.replicate count 0 := by
  have hmax : (UInt64.ofNat signer.maxSize).toNat = signer.maxSize :=
    UInt64.toNat_ofNat_of_lt' (lt_of_le_of_lt hroom (by decide))
  constructor
  · rw [hsigLen, announcedSize, hfresh.sigLen_eq]
    split
    · rwa [hmax]
    · exact Nat.zero_le _
  · rw [BootStage.sig, hsignature, hfresh.signature_eq]
    exact ⟨_, List.take_replicate⟩

variable (sign) in
/-- A signed stage keeps its lengths, and a check of any image against its signature returns
1 exactly if a signature was made and checked and both ends have fed the same bytes. -/
theorem check_signed_iff (hideal : IdealFor valid key signer stage.image)
    (hstale : NoStaleSignature valid key) (hroom : signer.maxSize ≤ 128)
    (hfresh : Fresh stage) :
    ∃ signed, signStageUnder signer sign stage = .ok signed ∧ signed.Fits ∧
      signed.image = stage.image ∧
        ∀ verify image, digestVerify valid verify (some key) image signed.sig = 1 ↔
          Compared sign verify ∧ fed verify.update image = fed sign.update stage.image := by
  have hmade : Made signer sign stage.sigLen ↔ _ :=
    made_of_fresh (maxSize_pos hideal hstale) hroom hfresh
  rcases signStageUnder_returns hroom hfresh.data_fits with
    ⟨signed, hsigned, himage, hdataLen, -, hsome, hnone⟩
  refine ⟨signed, hsigned, ?_⟩
  by_cases hcalls : Made signer sign stage.sigLen
  · rcases hsome hcalls with ⟨hfits, hsig⟩
    refine ⟨hfits, himage, fun verify image => ?_⟩
    rw [hsig, digestVerify_signed_iff hideal, ← and_assoc]
    exact and_congr_left fun _ => (and_iff_right (hmade.mp hcalls)).symm
  · rcases hnone hcalls with ⟨hsignature, hsigLen⟩
    rcases stale_sig hroom hfresh hsignature hsigLen with ⟨hshort, count, hsig⟩
    refine ⟨⟨hdataLen ▸ hfresh.data_fits, hshort⟩, himage, fun verify image => ?_⟩
    refine iff_of_false ?_ fun h => hcalls (hmade.mpr h.1.1)
    rw [digestVerify_eq_one_iff, hsig]
    rintro ⟨-, -, key', hkey, hvalid⟩
    cases hkey
    exact absurd (hvalid.symm.trans (hstale _ count)) (by decide)

/-- The check of the stage's own image. -/
theorem own_image_iff (hsome : stage.image ≠ []) {verify : DigestVerifyCalls} :
    Compared sign verify ∧ fed verify.update stage.image = fed sign.update stage.image ↔
      Passes sign verify := by
  rw [fed_eq_iff hsome, Passes, eq_comm]

/-- The check of another image than the one that was signed. -/
theorem other_image_iff {image : List UInt8} (hother : image ≠ stage.image)
    (hsome : image ≠ []) (hstage : stage.image ≠ []) {verify : DigestVerifyCalls} :
    Compared sign verify ∧ fed verify.update image = fed sign.update stage.image ↔
      Unfed sign verify := by
  refine and_congr_right fun _ => ?_
  cases verify.update <;> cases sign.update <;> simp [hother, hsome, Ne.symm hstage]

end Checks

/-! ## The whole simulation -/

/-- For every pattern of failing digest-sign and digest-verify calls at manufacture and at
boot, where every {lit}`EVP_MD_CTX_new` succeeds and an update on a context whose initialisation
has failed only fails: {lit}`main` exits with 0, and reports that the system has started, exactly
if for each stage a signature was made and checked and {lit}`EVP_DigestSignUpdate` and
{lit}`EVP_DigestVerifyUpdate` have both succeeded or both failed.  The tampering is reported
exactly if in addition the first stage passes its second check, and the tampered one is not let
through because neither of these two calls has seen its image; the exit code does not depend on
it. -/
theorem secureBootMain_iff {κ : Type*} (valid : SignatureScheme κ) (key : κ) (signer : Signer)
    (hstale : NoStaleSignature valid key) (hroom : signer.maxSize ≤ 128) (calls : MainCalls)
    (stage1 stage2 stage3 : BootStage)
    (hfresh : ∀ stage ∈ [stage1, stage2, stage3], Fresh stage)
    (hideal : ∀ stage ∈ [stage1, stage2, stage3], IdealFor valid key signer stage.image) :
    ∃ report, secureBootMain valid (some key) signer calls stage1 stage2 stage3 = .ok report ∧
      (report.exitCode = 0 ↔ Passes calls.sign1 calls.boot1 ∧ Passes calls.sign2 calls.boot2 ∧
        Passes calls.sign3 calls.boot3) ∧
      (report.systemStarted = true ↔ report.exitCode = 0) ∧
      (report.tamperingPrevented = true ↔ report.exitCode = 0 ∧
        Passes calls.sign1 calls.demo1 ∧ ¬Unfed calls.sign2 calls.demo2) := by
  have hfresh1 : Fresh stage1 := hfresh _ (by simp)
  have hfresh2 : Fresh stage2 := hfresh _ (by simp)
  have hfresh3 : Fresh stage3 := hfresh _ (by simp)
  rcases check_signed_iff calls.sign1 (hideal _ (by simp)) hstale hroom hfresh1 with
    ⟨signed1, hsigned1, hfits1, himage1, hcheck1⟩
  rcases check_signed_iff calls.sign2 (hideal _ (by simp)) hstale hroom hfresh2 with
    ⟨signed2, hsigned2, hfits2, himage2, hcheck2⟩
  rcases check_signed_iff calls.sign3 (hideal _ (by simp)) hstale hroom hfresh3 with
    ⟨signed3, hsigned3, hfits3, himage3, hcheck3⟩
  let slots : List Slot := [⟨calls.boot1, "Stage1", signed1⟩, ⟨calls.boot2, "Stage2", signed2⟩,
    ⟨calls.boot3, "Kernel", signed3⟩]
  have hboot : bootSlotsUnder valid (some key) slots = _ :=
    executed_bootSlotsUnder (by simp [slots, hfits1, hfits2, hfits3])
  have hall : (∀ slot ∈ slots, slot.Verified valid (some key)) ↔
      Passes calls.sign1 calls.boot1 ∧ Passes calls.sign2 calls.boot2 ∧
        Passes calls.sign3 calls.boot3 := by
    simp only [slots, List.forall_mem_cons, List.not_mem_nil, false_implies, implies_true,
      and_true, Slot.Verified, himage1, himage2, himage3, hcheck1, hcheck2, hcheck3,
      own_image_iff hfresh1.image_ne, own_image_iff hfresh2.image_ne,
      own_image_iff hfresh3.image_ne]
  have hagain : digestVerify valid calls.demo1 (some key) signed1.image signed1.sig = 1 ↔
      Passes calls.sign1 calls.demo1 := by
    rw [himage1, hcheck1, own_image_iff hfresh1.image_ne]
  have htampered : digestVerify valid calls.demo2 (some key) signed2.tampered.image
      signed2.sig = 1 ↔ Unfed calls.sign2 calls.demo2 := by
    have hother := tampered_image_ne (himage2 ▸ hfresh2.image_ne)
    rw [himage2] at hother
    exact (hcheck2 _ _).trans (other_image_iff hother.1 hother.2 hfresh2.image_ne)
  unfold secureBootMain
  simp only [hsigned1, hsigned2, hsigned3, bind, Except.bind]
  rw [hboot]
  by_cases hpass : ∀ slot ∈ slots, slot.Verified valid (some key)
  · simp only [if_pos hpass, ne_eq, not_true_eq_false, ↓reduceIte]
    rcases tamperingScenario_returns _ hfits1 hfits2 with
      ⟨report, hreport, hcode, hstarted, hprevented⟩
    refine ⟨report, hreport, iff_of_true hcode (hall.mp hpass), by simp [hstarted, hcode], ?_⟩
    rw [hprevented, hagain, htampered]
    exact (and_iff_right hcode).symm
  · simp only [if_neg hpass, ne_eq, one_ne_zero, not_false_eq_true, ↓reduceIte]
    exact ⟨_, rfl, iff_of_false (by simp) fun h => hpass (hall.mpr h), by simp, by simp⟩

/-! ## The stages of the simulation under one fault at each end -/

/-- The root key of the simulation. -/
def rootSigner : Signer where
  sign message := if message = [] then emptySignature else rootSign message
  maxSize := 72
  sign_le message := by
    unfold rootSign
    split_ifs <;> decide

/-- The images of the simulation and the empty message, with their signatures. -/
def signedPairs : List (List UInt8 × List UInt8) :=
  [[], stage1Image, stage2Image, kernelImage].map fun message =>
    (message, rootSigner.sign message)

/-- The three stages as {lit}`main` sets them up. -/
def simulationStages : List BootStage :=
  [simulationStage stage1Name stage1Image [], simulationStage stage2Name stage2Image [],
   simulationStage kernelName kernelImage []]

theorem simulationStages_fresh : ∀ stage ∈ simulationStages, Fresh stage := by
  have hdata : ∀ stage ∈ simulationStages, stage.dataLen.toNat ≤ 256 ∧ stage.image ≠ [] ∧
      stage.sigLen = 0 ∧ stage.signature = Buffer.zero 128 := by
    decide +kernel
  intro stage hstage
  rcases hdata stage hstage with ⟨hlen, himage, hsigLen, hsignature⟩
  exact ⟨hlen, himage, hsigLen, hsignature⟩

theorem simulationStages_ideal : ∀ stage ∈ simulationStages,
    IdealFor (tableScheme signedPairs) () rootSigner stage.image := by
  have hsigned : ∀ stage ∈ simulationStages, ∀ update,
      (fed update stage.image, rootSigner.sign (fed update stage.image)) ∈ signedPairs := by
    decide +kernel
  intro stage hstage update message
  exact tableScheme_iff.trans (mem_table_iff (by decide +kernel) (hsigned stage hstage update))

theorem signedPairs_not_stale : NoStaleSignature (tableScheme signedPairs) () := by
  have hfirst : ∀ pair ∈ signedPairs, 0x30 ∈ pair.2 := by
    decide +kernel
  intro message count
  refine Bool.eq_false_iff.mpr fun hvalid => ?_
  have hmem := hfirst _ (tableScheme_iff.mp hvalid)
  exact absurd (List.eq_of_mem_replicate hmem) (by decide)

/-- {lit}`EVP_DigestSignUpdate` fails when the second stage is signed, and
{lit}`EVP_DigestVerifyUpdate` whenever it is checked. -/
def unfedCalls : MainCalls where
  sign1 := .success
  sign2 := { DigestSignCalls.success with update := false }
  sign3 := .success
  boot1 := .success
  boot2 := updateFails
  boot3 := .success
  demo1 := .success
  demo2 := updateFails

/-- Then the system starts, and nobody notices the tampering. -/
theorem unfed_stage_started_and_tampered_unnoticed :
    ∃ report, secureBootMain (tableScheme signedPairs) (some ()) rootSigner unfedCalls
        (simulationStage stage1Name stage1Image []) (simulationStage stage2Name stage2Image [])
        (simulationStage kernelName kernelImage []) = .ok report ∧
      report.exitCode = 0 ∧ report.systemStarted = true ∧ report.tamperingPrevented = false := by
  rcases secureBootMain_iff (tableScheme signedPairs) () rootSigner signedPairs_not_stale
    (by decide) unfedCalls _ _ _ simulationStages_fresh simulationStages_ideal with
    ⟨report, hreport, hcode, hstarted, hprevented⟩
  have hstart : report.exitCode = 0 := hcode.mpr (by decide +kernel)
  refine ⟨report, hreport, hstart, hstarted.mpr hstart, ?_⟩
  rw [← Bool.not_eq_true, hprevented]
  exact fun h => h.2.2 (by decide +kernel)

end AutomotiveSecurity.SecureBoot
