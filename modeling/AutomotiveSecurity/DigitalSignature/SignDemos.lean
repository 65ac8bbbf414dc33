import AutomotiveSecurity.OpenSSL.DigestSign

/-!
# The demonstrations of {lit}`rsa_sign.c` and {lit}`ecdsa_sign.c`

Both programs sign a text, print the front of the signature and check it; {lit}`rsa_sign.c` also
checks it against a changed text.  They look at the result of the checks and of nothing else,
and they start with an uninitialised length.

Main results:

- Theorem {lit}`rsaSignMain_returns_iff`: when {lit}`rsa_sign.c` stays inside its array.
- Theorem {lit}`rsaSignMain_reports`: what it reports then, for every pattern of failing calls.
- Theorem {lit}`ecdsaSignMain_reports`: the same for {lit}`ecdsa_sign.c`.

Current gaps:

- The key is given; its generation is not modelled.
- {lit}`EVP_MD_CTX_new` always succeeds, and an update on a context whose initialisation has
  failed only fails.
-/

namespace AutomotiveSecurity.DigitalSignature

open Memory OpenSSL

/-! ## The programs -/

section Programs

variable {κ : Type} (valid : SignatureScheme κ) (key : κ) (signer : Signer)

/-- What {lit}`rsa_sign.c` prints: the front of the signature, whether the check succeeds, and
whether it reports the changed text. -/
structure RsaReport where
  shown : List UInt8
  verified : Bool
  tamperDetected : Bool
deriving DecidableEq, Repr

/-- {lit}`main` of {lit}`rsa_sign.c`, for any texts in place of its own. -/
def rsaSignMain (sign : DigestSignCalls) (verify verify2 : DigestVerifyCalls)
    (document tampered : List UInt8) (signature : Buffer 512) (sigLen : UInt64) :
    Except Fault RsaReport := do
  let (signature, sigLen) ← digestSign signer sign document signature sigLen
  let shown ← load signature.bytes 32
  let checked ← load signature.bytes sigLen.toNat
  let result := digestVerify valid verify (some key) document checked
  let result2 := digestVerify valid verify2 (some key) tampered checked
  return {
    shown := shown
    verified := result = 1
    tamperDetected := result2 ≠ 1 }

/-- What {lit}`ecdsa_sign.c` prints: the front of the signature, and whether the check
succeeds. -/
structure EcdsaReport where
  shown : List UInt8
  verified : Bool
deriving DecidableEq, Repr

/-- {lit}`main` of {lit}`ecdsa_sign.c`, for any text in place of its own. -/
def ecdsaSignMain (sign : DigestSignCalls) (verify : DigestVerifyCalls) (firmware : List UInt8)
    (signature : Buffer 128) (sigLen : UInt64) : Except Fault EcdsaReport := do
  let (signature, sigLen) ← digestSign signer sign firmware signature sigLen
  let shown ← load signature.bytes (min sigLen.toNat 32)
  let checked ← load signature.bytes sigLen.toNat
  let result := digestVerify valid verify (some key) firmware checked
  return { shown := shown, verified := result = 1 }

end Programs

/-! ## The signature in its array -/

section Signed

variable {signer : Signer} {n : Nat} (sign : DigestSignCalls) (data : List UInt8)
  (signature : Buffer n) (sigLen : UInt64)

/-- The bytes that count lie in the array exactly if a signature has been made, or the length
announced instead does not leave it. -/
theorem signed_in_array_iff (hroom : signer.maxSize ≤ n) (hn : n < 2 ^ 64) :
    ∃ after, digestSign signer sign data signature sigLen = .ok after ∧
      (after.2.toNat ≤ n ↔
        Made signer sign sigLen ∨ (announcedSize signer sign sigLen).toNat ≤ n) := by
  rcases digestSign_returns sign data signature sigLen hroom hn with ⟨after, hrun, hmade, hnot⟩
  refine ⟨after, hrun, ?_⟩
  by_cases h : Made signer sign sigLen
  · exact iff_of_true (hmade h).1 (Or.inl h)
  · rw [hnot h]
    exact (or_iff_right h).symm

/-- A signature that has been made is read back from the array. -/
theorem load_signed (hroom : signer.maxSize ≤ n) (hn : n < 2 ^ 64)
    (hmade : Made signer sign sigLen) :
    ∃ after, digestSign signer sign data signature sigLen = .ok after ∧
      after.2.toNat = (signer.sign (fed sign.update data)).length ∧
      load after.1.bytes after.2.toNat = .ok (signer.sign (fed sign.update data)) := by
  rcases digestSign_returns sign data signature sigLen hroom hn with ⟨after, hrun, hsigned, -⟩
  rcases hsigned hmade with ⟨hle, htake⟩
  refine ⟨after, hrun, ?_, ?_⟩
  · rw [← htake, List.length_take, after.1.size_eq, Nat.min_eq_left hle]
  · rw [load_of_le (by rw [after.1.size_eq]; exact hle), htake]

end Signed

/-! ## What the programs report -/

/-- {lit}`rsa_sign.c` stays inside its array exactly if a signature is made or the length left
in {lit}`sig_len` is at most 512. -/
theorem rsaSignMain_returns_iff {κ : Type} (valid : SignatureScheme κ) (key : κ)
    {signer : Signer} (hroom : signer.maxSize ≤ 512) (sign : DigestSignCalls)
    (verify verify2 : DigestVerifyCalls) (document tampered : List UInt8)
    (signature : Buffer 512) (sigLen : UInt64) :
    (∃ report, rsaSignMain valid key signer sign verify verify2 document tampered signature
        sigLen = .ok report) ↔
      Made signer sign sigLen ∨ (announcedSize signer sign sigLen).toNat ≤ 512 := by
  rcases signed_in_array_iff sign document signature sigLen hroom (by decide) with
    ⟨after, hrun, hin⟩
  rw [← hin]
  have hshown : load after.1.bytes 32 = .ok (after.1.bytes.take 32) :=
    load_of_le (by rw [after.1.size_eq]; decide)
  simp only [rsaSignMain, hrun, hshown, bind, Except.bind]
  constructor
  · rintro ⟨report, hreport⟩
    by_contra hlong
    have hfault : load after.1.bytes after.2.toNat = .error (.read after.1.bytes.length) := by
      rw [load, if_neg (by rw [after.1.size_eq]; exact hlong)]
    rw [hfault] at hreport
    contradiction
  · intro hle
    rw [load_of_le (by rw [after.1.size_eq]; exact hle)]
    exact ⟨_, rfl⟩

/-- When a signature is made, {lit}`rsa_sign.c` shows the front of the array and reports the
check as successful exactly if no call of the check but the update fails, and that one exactly
if the one of the signing does.  The changed text goes unnoticed exactly if neither the signing
nor its check has been fed and no other call of this check fails. -/
theorem rsaSignMain_reports {κ : Type} (valid : SignatureScheme κ) (key : κ) (signer : Signer)
    (hroom : signer.maxSize ≤ 512) (sign : DigestSignCalls) (verify verify2 : DigestVerifyCalls)
    (document tampered : List UInt8) (signature : Buffer 512) (sigLen : UInt64)
    (hideal : IdealFor valid key signer document) (hdocument : document ≠ [])
    (htampered : tampered ≠ []) (hother : tampered ≠ document)
    (hmade : Made signer sign sigLen) :
    ∃ report, rsaSignMain valid key signer sign verify verify2 document tampered signature
        sigLen = .ok report ∧
      (report.verified = true ↔
        verify.init = true ∧ verify.final = true ∧ verify.update = sign.update) ∧
      (report.tamperDetected = false ↔
        verify2.init = true ∧ verify2.final = true ∧ verify2.update = false ∧
          sign.update = false) := by
  rcases load_signed sign document signature sigLen hroom (by decide) hmade with
    ⟨after, hrun, -, hload⟩
  have hshown : load after.1.bytes 32 = .ok (after.1.bytes.take 32) :=
    load_of_le (by rw [after.1.size_eq]; decide)
  simp only [rsaSignMain, hrun, hshown, hload, bind, Except.bind, pure, Except.pure]
  refine ⟨_, rfl, ?_, ?_⟩
  · rw [decide_eq_true_iff, digestVerify_signed_iff hideal, fed_eq_iff hdocument]
  · rw [decide_eq_false_iff_not, not_not, digestVerify_signed_iff hideal]
    refine and_congr_right fun _ => and_congr_right fun _ => ?_
    cases verify2.update <;> cases sign.update <;>
      simp [hother, htampered, Ne.symm hdocument]

/-- {lit}`"OTA Update v2.5.1 - ECU Firmware"`. -/
def demoDocument : List UInt8 :=
  [0x4F, 0x54, 0x41, 0x20, 0x55, 0x70, 0x64, 0x61, 0x74, 0x65, 0x20, 0x76, 0x32, 0x2E, 0x35,
   0x2E, 0x31, 0x20, 0x2D, 0x20, 0x45, 0x43, 0x55, 0x20, 0x46, 0x69, 0x72, 0x6D, 0x77, 0x61,
   0x72, 0x65]

/-- {lit}`"OTA Update v9.9.9 - ECU Firmware"`. -/
def demoTampered : List UInt8 :=
  [0x4F, 0x54, 0x41, 0x20, 0x55, 0x70, 0x64, 0x61, 0x74, 0x65, 0x20, 0x76, 0x39, 0x2E, 0x39,
   0x2E, 0x39, 0x20, 0x2D, 0x20, 0x45, 0x43, 0x55, 0x20, 0x46, 0x69, 0x72, 0x6D, 0x77, 0x61,
   0x72, 0x65]

/-- The signature of the text under one RSA-2048 key. -/
def documentSignature : List UInt8 :=
  [0x85, 0xD4, 0xE3, 0xB6, 0xCF, 0x42, 0x5C, 0xFA, 0x98, 0x51, 0xFE, 0xAF, 0x0E, 0xED, 0xB1,
   0x67, 0x7C, 0x32, 0x29, 0x10, 0x3E, 0xA2, 0x2C, 0xC2, 0x86, 0x93, 0x77, 0x9B, 0xCC, 0x58,
   0xEB, 0x8B, 0xF7, 0xDB, 0x9F, 0xA2, 0x67, 0x0F, 0xDD, 0x84, 0x62, 0x23, 0x79, 0x3B, 0xA6,
   0x98, 0x3C, 0x59, 0x90, 0x5D, 0x4D, 0x0E, 0xCD, 0x01, 0xD8, 0xDC, 0xAF, 0x8B, 0xE1, 0x1D,
   0xF4, 0xD5, 0xE8, 0xB9, 0x93, 0xE3, 0x80, 0x9B, 0x56, 0x42, 0x87, 0x03, 0xB4, 0x77, 0x74,
   0x38, 0x3B, 0x8E, 0x55, 0xA5, 0x0C, 0xA3, 0xE4, 0x81, 0x31, 0x1B, 0xD0, 0xA3, 0x1E, 0x7B,
   0xCF, 0x28, 0xE1, 0x95, 0x0A, 0xED, 0xB4, 0xAC, 0x06, 0x5A, 0x9E, 0x7C, 0xC0, 0x3F, 0x45,
   0x0A, 0xB4, 0x62, 0x11, 0x77, 0xA6, 0xCA, 0x1D, 0x01, 0x3C, 0xFB, 0xC6, 0x39, 0x42, 0x71,
   0x74, 0x34, 0x44, 0x44, 0x33, 0xA9, 0x15, 0xA1, 0x51, 0xFA, 0x52, 0x74, 0xC7, 0x09, 0xE3,
   0x35, 0xAA, 0xA4, 0x86, 0x6A, 0x71, 0x17, 0x14, 0xB7, 0xD0, 0xBE, 0xEC, 0xBA, 0x87, 0xB2,
   0xBF, 0xB2, 0x46, 0x76, 0x27, 0x1B, 0xD0, 0x50, 0x8A, 0x6C, 0x25, 0xD5, 0x09, 0x9B, 0x4E,
   0x99, 0x11, 0xED, 0x54, 0xF0, 0xED, 0xD1, 0xB9, 0x14, 0xC4, 0x0E, 0xAC, 0xA8, 0x4E, 0x51,
   0x3D, 0x38, 0xA6, 0x3D, 0x8F, 0x88, 0xBE, 0x20, 0xEB, 0x00, 0xA5, 0xAE, 0x8E, 0x47, 0x8D,
   0xED, 0x73, 0xF9, 0x6E, 0x9F, 0xE9, 0xFF, 0xAA, 0xB6, 0xFB, 0x2F, 0x18, 0xC6, 0x16, 0x9B,
   0x23, 0x5C, 0x57, 0x65, 0x50, 0x5E, 0xBD, 0xDC, 0x06, 0x64, 0x9F, 0x6B, 0xDC, 0x2B, 0x93,
   0xF2, 0x81, 0xD2, 0x2A, 0x7B, 0x64, 0xA8, 0x19, 0xF8, 0x99, 0xF7, 0x13, 0x56, 0x96, 0x97,
   0xC6, 0xF2, 0xF5, 0x55, 0xE4, 0xC1, 0x2F, 0x89, 0x24, 0x4D, 0xD6, 0xC8, 0xD2, 0xCF, 0x98,
   0x5F]

/-- The signature of the empty text under the same key. -/
def emptyTextSignature : List UInt8 :=
  [0x88, 0xC4, 0xAF, 0xEC, 0x1F, 0xBD, 0x65, 0x0B, 0x44, 0x2D, 0x17, 0xB1, 0x4F, 0xF0, 0xD1,
   0x9D, 0xF4, 0xEB, 0x81, 0xA1, 0xFE, 0xC2, 0xB1, 0x3E, 0xD5, 0xC7, 0xE0, 0x48, 0x49, 0x3E,
   0xDA, 0xC2, 0x65, 0x4D, 0xCB, 0x3B, 0x42, 0x48, 0xB4, 0x3E, 0x6E, 0x20, 0xA7, 0x0E, 0xDD,
   0xE7, 0x74, 0x2B, 0x4A, 0x8F, 0x84, 0x34, 0xA1, 0xF5, 0x0F, 0x43, 0x05, 0x5C, 0x2E, 0xCC,
   0xCA, 0x20, 0xD1, 0x6E, 0xB7, 0xEF, 0x1C, 0xBE, 0x66, 0x0E, 0x94, 0x4B, 0xA6, 0xD1, 0xED,
   0x07, 0x47, 0x6E, 0x4E, 0x5D, 0x3D, 0xCE, 0xF6, 0xD5, 0x9B, 0x48, 0xA1, 0xC0, 0x45, 0x2B,
   0x49, 0x8A, 0xDA, 0xAA, 0x0E, 0x20, 0x8D, 0x84, 0xB7, 0x6C, 0x2D, 0x1D, 0x35, 0x83, 0xEE,
   0xBC, 0x93, 0xEE, 0x6F, 0x72, 0xC8, 0xFD, 0x97, 0x99, 0x31, 0x76, 0xC6, 0xFC, 0x19, 0x95,
   0xC0, 0xE6, 0xE6, 0x2A, 0x76, 0xD6, 0x43, 0x4F, 0xB1, 0x80, 0x03, 0x5D, 0x07, 0xAF, 0x70,
   0x4E, 0xBB, 0xB1, 0xD9, 0xF6, 0x4D, 0xBA, 0x90, 0x19, 0x61, 0x9B, 0x19, 0xAA, 0x0C, 0x5C,
   0xE2, 0x68, 0x88, 0x15, 0x2D, 0x8E, 0x27, 0x8A, 0x42, 0x4D, 0xF7, 0x98, 0x45, 0x30, 0xB6,
   0x20, 0x03, 0x21, 0x51, 0xDE, 0x9C, 0x1E, 0x09, 0x53, 0x44, 0xD6, 0x95, 0x5D, 0xA0, 0xCC,
   0x04, 0x19, 0x49, 0x9D, 0xEA, 0xE3, 0xA1, 0xC3, 0x9C, 0xA0, 0x65, 0x34, 0xD2, 0x42, 0x7E,
   0x77, 0x44, 0x6D, 0xCD, 0xD0, 0xDA, 0x1F, 0xE9, 0xE7, 0xEF, 0x90, 0xA9, 0x69, 0x25, 0x4E,
   0x00, 0x5C, 0xDB, 0xAC, 0xCA, 0x73, 0xB4, 0x7F, 0x29, 0xEC, 0x46, 0xA1, 0x9E, 0xF3, 0x18,
   0x86, 0xAA, 0xB9, 0x00, 0x95, 0x6F, 0x0A, 0xD2, 0x50, 0x09, 0x0A, 0xA0, 0x45, 0xAF, 0x28,
   0x96, 0x50, 0x00, 0x05, 0x86, 0x0D, 0xD9, 0x90, 0x5D, 0xA2, 0xDE, 0x12, 0x7C, 0x55, 0x52,
   0x3A]

/-- That key on the two texts. -/
def demoSigner : Signer where
  sign message := if message = demoDocument then documentSignature else emptyTextSignature
  maxSize := 256
  sign_le message := by
    split_ifs <;> decide +kernel

/-- The signatures that have been made with it. -/
def demoPairs : List (List UInt8 × List UInt8) :=
  [(demoDocument, documentSignature), ([], emptyTextSignature)]

theorem demoPairs_ideal : IdealFor (tableScheme demoPairs) () demoSigner demoDocument := by
  intro update message
  refine tableScheme_iff.trans (mem_table_iff (by decide +kernel) ?_)
  cases update <;> decide +kernel

/-- With every update call failing, the check succeeds and the changed text goes unnoticed. -/
theorem unfed_signature_hides_tampering :
    ∃ report, rsaSignMain (tableScheme demoPairs) () demoSigner
        { DigestSignCalls.success with update := false }
        { DigestVerifyCalls.success with update := false }
        { DigestVerifyCalls.success with update := false } demoDocument demoTampered
        (Buffer.zero 512) 0 = .ok report ∧
      report.verified = true ∧ report.tamperDetected = false := by
  rcases rsaSignMain_reports (tableScheme demoPairs) () demoSigner (by decide)
    { DigestSignCalls.success with update := false }
    { DigestVerifyCalls.success with update := false }
    { DigestVerifyCalls.success with update := false } demoDocument demoTampered
    (Buffer.zero 512) 0 demoPairs_ideal (by decide) (by decide) (by decide) (by decide) with
    ⟨report, hrun, hverified, hdetected⟩
  exact ⟨report, hrun, hverified.mpr (by decide), hdetected.mpr (by decide)⟩

/-- When a signature is made, {lit}`ecdsa_sign.c` shows its first 32 bytes and reports the check
as successful exactly if no call of the check but the update fails, and that one exactly if the
one of the signing does. -/
theorem ecdsaSignMain_reports {κ : Type} (valid : SignatureScheme κ) (key : κ)
    (signer : Signer) (hroom : signer.maxSize ≤ 128) (sign : DigestSignCalls)
    (verify : DigestVerifyCalls) (firmware : List UInt8) (signature : Buffer 128)
    (sigLen : UInt64) (hideal : IdealFor valid key signer firmware) (hfirmware : firmware ≠ [])
    (hmade : Made signer sign sigLen) :
    ∃ report, ecdsaSignMain valid key signer sign verify firmware signature sigLen =
        .ok report ∧
      report.shown = (signer.sign (fed sign.update firmware)).take 32 ∧
      (report.verified = true ↔
        verify.init = true ∧ verify.final = true ∧ verify.update = sign.update) := by
  rcases load_signed sign firmware signature sigLen hroom (by decide) hmade with
    ⟨after, hrun, hlength, hload⟩
  have hparts := load_eq_ok.mp hload
  have hshown : load after.1.bytes (min after.2.toNat 32) =
      .ok ((signer.sign (fed sign.update firmware)).take 32) := by
    rw [load_of_le (le_trans (Nat.min_le_left _ _) hparts.1), ← hparts.2, List.take_take,
      Nat.min_comm]
  simp only [ecdsaSignMain, hrun, hshown, hload, bind, Except.bind, pure, Except.pure]
  refine ⟨_, rfl, rfl, ?_⟩
  rw [decide_eq_true_iff, digestVerify_signed_iff hideal, fed_eq_iff hfirmware]

end AutomotiveSecurity.DigitalSignature
