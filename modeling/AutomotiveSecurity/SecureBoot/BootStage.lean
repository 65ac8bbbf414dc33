import AutomotiveSecurity.OpenSSL.DigestSign

/-!
# Boot stages

The {lit}`BootStage` record of {lit}`secure_boot.c` with the two functions on it: the
one that signs a stage at manufacture, and the one that verifies it during boot.

Main results:

- Theorem {lit}`signStage_ok`: a signed stage keeps its image and carries the signature
  of that image, and of nothing else.
- Theorem {lit}`verifyStage_of_calls`: the result is that of the digest-verify calls on
  the image and the signature.
- Theorem {lit}`verifyStage_eq`: without a failing call the result depends on the image
  and the signature alone.

Current gaps:

- Key generation is not modelled; the printed texts are left out.
-/

namespace AutomotiveSecurity.SecureBoot

open Memory OpenSSL

/-- {lit}`BootStage`. -/
structure BootStage where
  name : Buffer 32
  data : Buffer 256
  dataLen : UInt64
  signature : Buffer 128
  sigLen : UInt64
deriving DecidableEq, Repr

/-- The image of a stage: the bytes of {lit}`data` that count. -/
def BootStage.image (stage : BootStage) : List UInt8 :=
  stage.data.bytes.take stage.dataLen.toNat

/-- The bytes of {lit}`signature` that count. -/
def BootStage.sig (stage : BootStage) : List UInt8 :=
  stage.signature.bytes.take stage.sigLen.toNat

/-- Both lengths stay inside their arrays. -/
def BootStage.Fits (stage : BootStage) : Prop :=
  stage.dataLen.toNat ≤ 256 ∧ stage.sigLen.toNat ≤ 128

instance (stage : BootStage) : Decidable stage.Fits :=
  inferInstanceAs (Decidable (_ ∧ _))

/-! ## Signing -/

/-- {lit}`sign_stage`, where {lit}`run` is what the digest-sign calls do to the signature and
its length. -/
def signStageWith (run : List UInt8 → Buffer 128 → UInt64 → Except Fault (Buffer 128 × UInt64))
    (stage : BootStage) : Except Fault BootStage := do
  let message ← load stage.data.bytes stage.dataLen.toNat
  let (signature, sigLen) ← run message stage.signature stage.sigLen
  return { stage with signature := signature, sigLen := sigLen }

/-- {lit}`sign_stage` when no call fails.  {lit}`sign` is what {lit}`EVP_DigestSignFinal`
produces under the root key. -/
def signStage (sign : List UInt8 → List UInt8) (stage : BootStage) :
    Except Fault BootStage :=
  signStageWith (fun message signature _ => writeSignature sign message signature) stage

/-- {lit}`sign_stage` when some of its calls fail. -/
def signStageUnder (signer : Signer) (calls : DigestSignCalls) (stage : BootStage) :
    Except Fault BootStage :=
  signStageWith (digestSign signer calls) stage

/-- Without a failing call this is {lit}`signStage`. -/
theorem signStageUnder_success {signer : Signer} (hroom : signer.maxSize ≤ 128)
    (stage : BootStage) :
    signStageUnder signer .success stage = signStage signer.sign stage := by
  rw [signStageUnder, signStage, signStageWith, signStageWith]
  simp only [digestSign_success (lt_of_le_of_lt hroom (by decide))]

/-- The whole effect of {lit}`sign_stage`. -/
theorem signStage_ok {sign : List UInt8 → List UInt8} {stage signed : BootStage}
    (hsign : signStage sign stage = .ok signed) :
    signed.Fits ∧ signed.name = stage.name ∧ signed.image = stage.image ∧
      signed.sig = sign stage.image := by
  unfold signStage signStageWith at hsign
  rcases bind_eq_ok.mp hsign with ⟨message, hload, hsign⟩
  rcases bind_eq_ok.mp hsign with ⟨after, hwrite, hsign⟩
  rcases bind_eq_ok.mp hwrite with ⟨signature, hstore, hafter⟩
  rcases load_eq_ok.mp hload with ⟨hdata, rfl⟩
  rcases store_eq_ok.mp hstore with ⟨hroom, rfl⟩
  cases hafter
  cases hsign
  rw [Buffer.size_eq] at hdata
  have hsig : (sign stage.image).length ≤ 128 := (Nat.zero_add _).ge.trans hroom
  have hlen : (UInt64.ofNat (sign stage.image).length).toNat = (sign stage.image).length :=
    UInt64.toNat_ofNat_of_lt' (lt_of_le_of_lt hsig (by decide))
  refine ⟨⟨hdata, ?_⟩, rfl, rfl, ?_⟩
  · show (UInt64.ofNat (sign stage.image).length).toNat ≤ 128
    rw [hlen]
    exact hsig
  · exact (congrArg (List.take · _) hlen).trans (Buffer.take_overwrite _ hroom)

/-! ## Verification -/

section Verification

variable {κ : Type*} (valid : SignatureScheme κ)

/-- {lit}`verify_stage`.  It uses {lit}`stage_name` in its messages only. -/
def verifyStage (calls : DigestVerifyCalls) (rootKey : Option κ) (_stageName : String)
    (stage : BootStage) : Except Fault Int := do
  let ctx := evpMdCtxNew
  let ctx := evpDigestVerifyInit calls.init ctx rootKey
  let data ← load stage.data.bytes stage.dataLen.toNat
  let ctx := evpDigestVerifyUpdate calls.update ctx data
  let sig ← load stage.signature.bytes stage.sigLen.toNat
  let result := evpDigestVerifyFinal valid calls.final ctx sig
  return if result = 1 then 1 else 0

/-- {lit}`verify_stage` hands the image and its signature to the sequence of calls. -/
theorem verifyStage_of_calls (calls : DigestVerifyCalls) (rootKey : Option κ)
    (stageName : String) {stage : BootStage} (hfits : stage.Fits) :
    verifyStage valid calls rootKey stageName stage =
      .ok (if digestVerify valid calls rootKey stage.image stage.sig = 1 then 1 else 0) := by
  unfold verifyStage
  rw [load_of_le (by simpa using hfits.1), load_of_le (by simpa using hfits.2)]
  rfl

/-- Without a failing call {lit}`verify_stage` tells whether the signature is valid for
the image under the root key. -/
theorem verifyStage_eq (rootKey : κ) (stageName : String) {stage : BootStage}
    (hfits : stage.Fits) :
    verifyStage valid .success (some rootKey) stageName stage =
      .ok (if valid rootKey stage.image stage.sig then 1 else 0) := by
  rw [verifyStage_of_calls valid .success (some rootKey) stageName hfits]
  simp only [digestVerify_success_some_iff]

end Verification

end AutomotiveSecurity.SecureBoot
