import AutomotiveSecurity.OpenSSL.DigestSign
import AutomotiveSecurity.SecureBoot.FaultInjection

/-!
# Firmware signed and verified under failing calls

{lit}`sign_firmware.c` ignores the results of its digest-sign calls and writes the package in
any case, with whatever its signature array and {lit}`sig_len` hold by then.

Main results:

- Theorem {lit}`signFirmwareUnder_returns_iff`: when a package is written at all.
- Theorem {lit}`package_accepted_iff`: for every pattern of failures in both tools, which
  payloads the verification tool accepts with the signature that was written.

Current gaps:

- Key generation and the key files are not modelled; all file operations succeed.
- {lit}`EVP_MD_CTX_new` always succeeds, and an update on a context whose initialisation has
  failed only fails.
-/

namespace AutomotiveSecurity.CodeSigning

open FaultInjection HostInteger Memory OpenSSL

section Signer

variable {order : ByteOrder} {signer : Signer} {calls : DigestSignCalls} {array : Buffer 128}
  {staleLen : UInt64} {fwData : List UInt8}

variable (order) in
/-- What the tool writes once its calls have left a signature array and a length. -/
theorem signFirmwareUnder_of_calls {after : Buffer 128 × UInt64}
    (hafter : digestSign signer calls fwData array staleLen = .ok after)
    (hdata : fwData.length < 2 ^ 32) :
    (∀ hshort : after.2.toNat ≤ 128,
        signFirmwareUnder order signer calls array staleLen fwData =
          .ok ((signedPackage (fun _ => after.1.bytes.take after.2.toNat) fwData hdata
            ((List.length_take_le _ _).trans hshort)).toBytes order)) ∧
      (¬after.2.toNat ≤ 128 →
        signFirmwareUnder order signer calls array staleLen fwData = .error (.read 128)) := by
  unfold signFirmwareUnder
  exact signFirmwareWith_of_calls order hafter hdata

/-- A package is written exactly if a signature was made or {lit}`sig_len` happens to stay
inside the array. -/
theorem signFirmwareUnder_returns_iff (hroom : signer.maxSize ≤ 128)
    (hdata : fwData.length < 2 ^ 32) :
    (∃ file, signFirmwareUnder order signer calls array staleLen fwData = .ok file) ↔
      Made signer calls staleLen ∨ (announcedSize signer calls staleLen).toNat ≤ 128 := by
  rcases digestSign_returns calls fwData array staleLen hroom (by omega) with
    ⟨after, hafter, hmade, hnot⟩
  rcases signFirmwareUnder_of_calls order hafter hdata with ⟨hwritten, hfault⟩
  have hshort : after.2.toNat ≤ 128 ↔
      Made signer calls staleLen ∨ (announcedSize signer calls staleLen).toNat ≤ 128 := by
    by_cases hcalls : Made signer calls staleLen
    · exact iff_of_true (hmade hcalls).1 (Or.inl hcalls)
    · rw [hnot hcalls, or_iff_right hcalls]
  rw [← hshort]
  constructor
  · rintro ⟨file, hfile⟩
    by_contra hlong
    rw [hfault hlong] at hfile
    contradiction
  · exact fun h => ⟨_, hwritten h⟩

end Signer

/-! ## Verification of what was written -/

section Verification

variable {κ : Type*} {valid : SignatureScheme κ} {order : ByteOrder} {key : κ}

/-- The verification tool judges the package in the file. -/
theorem verifyFirmware_package (verify : DigestVerifyCalls) (memory : StaleMemory)
    {signature payload : List UInt8} (hpayload : payload.length < 2 ^ 32)
    (hsig : signature.length ≤ 128) :
    (∃ outcome, verifyFirmware valid order verify memory (some (some key))
        (some ((signedPackage (fun _ => signature) payload hpayload hsig).toBytes order)) =
          .ok outcome ∧ outcome.exitCode = 0) ↔
      (payload.length < 2 ^ 31 ∨ 0 ∈ payload) ∧
        digestVerify valid verify (some key) payload signature = 1 := by
  rw [verifyFirmware_eq, readPackage_of_prefix memory List.prefix_rfl, judge_exits_zero_iff]
  exact and_iff_right rfl

end Verification

/-- For all data, every pattern of failing {lit}`EVP_DigestSign...` calls in the signing tool and
of failing {lit}`EVP_DigestVerify...` calls in the verification tool, all other calls succeeding,
and everything the signing tool finds on its stack: a package is written exactly if a signature
was made or {lit}`sig_len` stays inside its array.  With the signature in it, the verification tool
accepts exactly the printable payloads for which it makes a check, and which feed to it what
the signing tool has fed; without one, those for which the old content of the array happens
to be a signature. -/
theorem package_accepted_iff {κ : Type*} (valid : SignatureScheme κ) (order : ByteOrder)
    (key : κ) (signer : Signer) (hroom : signer.maxSize ≤ 128) (calls : DigestSignCalls)
    (array : Buffer 128) (staleLen : UInt64) (fwData : List UInt8)
    (hdata : fwData.length < 2 ^ 32) (hideal : IdealFor valid key signer fwData) :
    ((∃ file, signFirmwareUnder order signer calls array staleLen fwData = .ok file) ↔
      Made signer calls staleLen ∨ (announcedSize signer calls staleLen).toNat ≤ 128) ∧
    ∀ file, signFirmwareUnder order signer calls array staleLen fwData = .ok file →
      ∃ (signature : List UInt8) (hsig : signature.length ≤ 128),
        file = (signedPackage (fun _ => signature) fwData hdata hsig).toBytes order ∧
        ∀ (verify : DigestVerifyCalls) (memory : StaleMemory) (payload : List UInt8)
          (hpayload : payload.length < 2 ^ 32),
          (∃ outcome, verifyFirmware valid order verify memory (some (some key))
              (some ((signedPackage (fun _ => signature) payload hpayload hsig).toBytes
                order)) = .ok outcome ∧ outcome.exitCode = 0) ↔
            (payload.length < 2 ^ 31 ∨ 0 ∈ payload) ∧
              verify.init = true ∧ verify.final = true ∧
                if Made signer calls staleLen then
                  fed verify.update payload = fed calls.update fwData
                else
                  valid key (fed verify.update payload)
                    (array.bytes.take (announcedSize signer calls staleLen).toNat) = true := by
  refine ⟨signFirmwareUnder_returns_iff hroom hdata, ?_⟩
  intro file hfile
  rcases digestSign_returns calls fwData array staleLen hroom (by omega) with
    ⟨after, hafter, hmade, hnot⟩
  rcases signFirmwareUnder_of_calls order hafter hdata with ⟨hwritten, hfault⟩
  have hshort : after.2.toNat ≤ 128 := by
    by_contra hlong
    rw [hfault hlong] at hfile
    contradiction
  rw [hwritten hshort] at hfile
  refine ⟨after.1.bytes.take after.2.toNat, (List.length_take_le _ _).trans hshort,
    (Except.ok.inj hfile).symm, ?_⟩
  intro verify memory payload hpayload
  rw [verifyFirmware_package verify memory hpayload]
  refine and_congr_right fun _ => ?_
  by_cases hcalls : Made signer calls staleLen
  · rw [if_pos hcalls, (hmade hcalls).2]
    exact digestVerify_signed_iff hideal
  · rw [if_neg hcalls, hnot hcalls, digestVerify_eq_one_iff]
    simp only [Option.some.injEq, exists_eq_left']
    rfl

/-- The key of the signing tool, for its data and for the empty message. -/
def sampleSigner : Signer where
  sign message := if message = [] then emptySignature else sampleSignature
  maxSize := 72
  sign_le message := by
    split_ifs <;> decide

/-- What this key has signed. -/
def samplePairs : List (List UInt8 × List UInt8) :=
  [([], emptySignature), (sampleFwData, sampleSignature)]

theorem sample_ideal : IdealFor (tableScheme samplePairs) () sampleSigner sampleFwData := by
  have hsigned : ∀ update, (fed update sampleFwData,
      sampleSigner.sign (fed update sampleFwData)) ∈ samplePairs := by
    decide +kernel
  intro update message
  exact tableScheme_iff.trans (mem_table_iff (by decide +kernel) (hsigned update))

/-- With {lit}`EVP_DigestSignUpdate` failing in one tool and {lit}`EVP_DigestVerifyUpdate` in
the other, any short payload is accepted with the signature that was written. -/
theorem any_payload_accepted_after_two_failures :
    ∃ file, signFirmwareUnder .little sampleSigner
        { DigestSignCalls.success with update := false } (Buffer.zero 128) 0 sampleFwData =
          .ok file ∧
      ∃ (signature : List UInt8) (hsig : signature.length ≤ 128),
        ∀ (memory : StaleMemory) (payload : List UInt8) (hpayload : payload.length < 2 ^ 31),
          ∃ outcome, verifyFirmware (tableScheme samplePairs) .little updateFails memory
              (some (some ())) (some ((signedPackage (fun _ => signature) payload
                (by omega) hsig).toBytes .little)) = .ok outcome ∧ outcome.exitCode = 0 := by
  have hmade : Made sampleSigner { DigestSignCalls.success with update := false } 0 := by
    decide +kernel
  rcases package_accepted_iff (tableScheme samplePairs) .little () sampleSigner (by decide)
    { DigestSignCalls.success with update := false } (Buffer.zero 128) 0 sampleFwData
    (by decide) sample_ideal with ⟨hreturns, haccepted⟩
  rcases hreturns.mpr (Or.inl hmade) with ⟨file, hfile⟩
  rcases haccepted file hfile with ⟨signature, hsig, -, hpayloads⟩
  refine ⟨file, hfile, signature, hsig, fun memory payload hpayload => ?_⟩
  refine (hpayloads updateFails memory payload (by omega)).mpr ⟨Or.inl hpayload, rfl, rfl, ?_⟩
  rw [if_pos hmade]
  rfl

end AutomotiveSecurity.CodeSigning
