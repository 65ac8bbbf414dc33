import AutomotiveSecurity.Foundations.CString
import AutomotiveSecurity.Foundations.Overwriting
import AutomotiveSecurity.AesEncryption.GcmRefinement

/-!
# The demonstration of {lit}`aes_gcm.c`

{lit}`main` encrypts a text, decrypts it, and then decrypts it again with a changed ciphertext and
with changed associated data.  It prints what it takes from the return values.  What a second
text under the same key and IV would show is treated too.

Main results:

- Theorem {lit}`main_reports`: what {lit}`main` prints, for every pattern of failing calls.
- Theorem {lit}`reused_iv_shows_difference`: what two ciphertexts under one key and IV show.

Current gaps:

- The texts are arbitrary; those of the program are one choice of them.
-/

namespace AutomotiveSecurity.AesGcm

open HostLength Memory OpenSSL

variable {τ : Type} {n : Nat}

/-! ## The program -/

/-- The failing calls of one run of {lit}`main`: of the encryption, of the decryption of what
was made, and of the two decryptions of changed data. -/
structure MainCalls where
  encrypt : GcmCalls
  genuine : GcmCalls
  ciphertextTest : GcmCalls
  aadTest : GcmCalls
deriving DecidableEq, Repr

/-- What is printed about the changed ciphertext. -/
inductive Verdict
  | detected
  | unexpected
  | nothing
deriving DecidableEq, Repr

/-- What {lit}`main` prints: the decrypted text, if the decryption is reported as a success, and
what it says about the changed ciphertext and the changed associated data. -/
structure MainReport where
  shown : Option (List UInt8)
  ciphertextTest : Verdict
  aadDetected : Bool
deriving DecidableEq, Repr

/-- What is printed after the first decryption: the text is terminated in place. -/
def showDecrypted (ptLen : Int32) (decrypted : Buffer 256) :
    Except Fault (Option (List UInt8) × Buffer 256) := do
  if 0 ≤ ptLen then
    let (decrypted, text) ← printTerminated decrypted ptLen.toNatClampNeg
    return (some text, decrypted)
  else
    return (none, decrypted)

/-- The changed ciphertext: a copy with one bit of the first byte flipped. -/
def tamper (ciphertext tamperedCt : Buffer 256) (ctLen : Int32) : Except Fault (Buffer 256) :=
  copyChanged tamperedCt ciphertext.bytes (intToSize ctLen).toNat 0x01

/-- {lit}`main` of {lit}`aes_gcm.c` from the filled {lit}`key` and {lit}`iv` on, for any text and
associated data in place of its own: the exit code, and what is printed when there is a
ciphertext. -/
def aesGcmMain [DecidableEq τ] (aead : GcmFunction τ) (calls : MainCalls) (key : Buffer 32)
    (iv : Buffer 12) (plaintext aad tamperedAad : List UInt8)
    (ciphertext decrypted tamperedCt : Buffer 256) (tag : τ) :
    Except Fault (Int32 × Option MainReport) := do
  let (ctLen, ciphertext, tag) ← aesGcmEncrypt aead calls.encrypt key iv (some aad)
    (UInt64.ofNat aad.length) plaintext (UInt64.ofNat plaintext.length) ciphertext tag
  if ctLen < 0 then
    return (1, none)
  let (ptLen, decrypted) ← aesGcmDecrypt aead calls.genuine key iv (some aad)
    (UInt64.ofNat aad.length) ciphertext.bytes (intToSize ctLen) tag decrypted
  let (shown, decrypted) ← showDecrypted ptLen decrypted
  let tamperedCt ← tamper ciphertext tamperedCt ctLen
  let (ptLen, decrypted) ← aesGcmDecrypt aead calls.ciphertextTest key iv (some aad)
    (UInt64.ofNat aad.length) tamperedCt.bytes (intToSize ctLen) tag decrypted
  let ciphertextTest := if ptLen = -2 then Verdict.detected
    else if 0 ≤ ptLen then .unexpected else .nothing
  let (ptLen, _) ← aesGcmDecrypt aead calls.aadTest key iv (some tamperedAad)
    (UInt64.ofNat tamperedAad.length) ciphertext.bytes (intToSize ctLen) tag decrypted
  return (0, some
    { shown := shown
      ciphertextTest := ciphertextTest
      aadDetected := ptLen = -2 })

/-- No call of a decryption or encryption fails before the tag is set or read. -/
def reachesFinal (calls : GcmCalls) (aad plaintext : List UInt8) : Bool :=
  textAccepted calls (some aad) (UInt64.ofNat aad.length) (UInt64.ofNat plaintext.length) &&
    calls.tag

/-- The ciphertext with one bit of its first byte flipped, if it has one. -/
def flipFirst : List UInt8 → List UInt8
  | [] => []
  | b :: bs => (b ^^^ 0x01) :: bs

@[simp]
theorem length_flipFirst (data : List UInt8) : (flipFirst data).length = data.length := by
  cases data with
  | nil => rfl
  | cons b bs => rfl

/-! ## Its steps -/

section Steps

theorem toNat_ofNat_length (data : List UInt8) (hlen : data.length < 2 ^ 31) :
    (UInt64.ofNat data.length).toNat = data.length := by
  rw [UInt64.toNat_ofNat']
  omega

theorem sizeToInt_ofNat_length (data : List UInt8) (hlen : data.length < 2 ^ 31) :
    sizeToInt (UInt64.ofNat data.length) = Int32.ofNat data.length := by
  rw [sizeToInt_eq_ofNat, low32_of_lt (by rw [toNat_ofNat_length data hlen]; omega),
    toNat_ofNat_length data hlen]

theorem intToSize_ofNat_length (data : List UInt8) (hlen : data.length < 2 ^ 31) :
    intToSize (Int32.ofNat data.length) = UInt64.ofNat data.length := by
  apply UInt64.toNat.inj
  rw [toNat_intToSize_ofNat hlen, toNat_ofNat_length data hlen]

/-- The encryption in {lit}`main`. -/
theorem aesGcmEncrypt_main (aead : GcmFunction τ) (calls : GcmCalls) (key : Buffer 32)
    (iv : Buffer 12) {aad plaintext : List UInt8} (ciphertext : Buffer 256) (tag : τ)
    (haad : aad.length < 2 ^ 31) (hplain : plaintext.length ≤ 256) :
    ∃ (r : Int32) (written : Buffer 256) (tagged : τ),
      aesGcmEncrypt aead calls key iv (some aad) (UInt64.ofNat aad.length) plaintext
        (UInt64.ofNat plaintext.length) ciphertext tag = .ok (r, written, tagged) ∧
      (reachesFinal calls aad plaintext && calls.final) = decide (0 ≤ r) ∧
      (0 ≤ r → r = Int32.ofNat plaintext.length ∧
        written.bytes.take plaintext.length = aead.crypt key.bytes iv.bytes plaintext ∧
        tagged = aead.tag key.bytes iv.bytes aad (aead.crypt key.bytes iv.bytes plaintext)) := by
  have haadLen := toNat_ofNat_length aad haad
  have hlen := toNat_ofNat_length plaintext (by omega)
  have hint := sizeToInt_ofNat_length plaintext (by omega)
  have hobject : ∀ object, some aad = some object →
      (UInt64.ofNat aad.length).toNat ≤ object.length := by
    rintro object ⟨rfl⟩
    exact haadLen.le
  rcases aesGcmEncrypt_eq aead calls key iv ciphertext tag hobject hlen.le (by omega) with
    ⟨written, hwritten, hrun⟩
  have hlow : low32 (UInt64.ofNat plaintext.length) = plaintext.length := by
    rw [low32_of_lt (by omega), hlen]
  have haadLow : processedAad (some aad) (UInt64.ofNat aad.length) = aad := by
    rw [processedAad_of_max _ (by omega), aadBytes, haadLen, List.take_length]
  rw [hlow, List.take_length, haadLow, hint] at hrun
  rw [hlow, List.take_length] at hwritten
  have hnonneg : (0 : Int32) ≤ Int32.ofNat plaintext.length := by
    rw [← hint]
    exact zero_le_sizeToInt (by rw [hlow]; omega)
  cases htext : textAccepted calls (some aad) (UInt64.ofNat aad.length)
      (UInt64.ofNat plaintext.length) with
  | false =>
      rw [htext] at hrun
      exact ⟨_, _, _, hrun, by rw [reachesFinal, htext]; rfl, fun h => absurd h (by decide)⟩
  | true =>
      rw [htext, if_pos rfl] at hrun
      cases hlast : calls.final && calls.tag with
      | false =>
          rw [hlast] at hrun
          refine ⟨_, _, _, hrun, ?_, fun h => absurd h (by decide)⟩
          rw [reachesFinal, htext, Bool.true_and, Bool.and_comm, hlast]
          rfl
      | true =>
          rw [hlast] at hrun
          refine ⟨_, _, _, hrun, ?_, fun _ => ⟨rfl, ?_, rfl⟩⟩
          · rw [reachesFinal, htext, Bool.true_and, Bool.and_comm, hlast]
            exact (decide_eq_true hnonneg).symm
          · rw [hwritten]
            exact List.take_left' (aead.length_crypt _ _ _)

/-- A decryption in {lit}`main`, of a ciphertext at the start of an array. -/
theorem aesGcmDecrypt_main [DecidableEq τ] (aead : GcmFunction τ) (calls : GcmCalls)
    (key : Buffer 32) (iv : Buffer 12) {aad data : List UInt8} (ciphertext plaintext : Buffer 256)
    (tag : τ) (haad : aad.length < 2 ^ 31) (hdata : data.length ≤ 256)
    (hfront : ciphertext.bytes.take data.length = data) :
    ∃ (r : Int32) (left : Buffer 256),
      aesGcmDecrypt aead calls key iv (some aad) (UInt64.ofNat aad.length) ciphertext.bytes
        (UInt64.ofNat data.length) tag plaintext = .ok (r, left) ∧
      (0 ≤ r ↔ reachesFinal calls aad data = true ∧ calls.final = true ∧
        tag = aead.tag key.bytes iv.bytes aad data) ∧
      (r = -2 ↔ reachesFinal calls aad data = true ∧
        ¬(calls.final = true ∧ tag = aead.tag key.bytes iv.bytes aad data)) ∧
      (0 ≤ r → r = Int32.ofNat data.length ∧
        left.bytes.take data.length = aead.crypt key.bytes iv.bytes data) := by
  have haadLen := toNat_ofNat_length aad haad
  have hlen := toNat_ofNat_length data (by omega)
  have hint := sizeToInt_ofNat_length data (by omega)
  have hobject : ∀ object, some aad = some object →
      (UInt64.ofNat aad.length).toNat ≤ object.length := by
    rintro object ⟨rfl⟩
    exact haadLen.le
  rcases aesGcmDecrypt_of_max aead calls key iv tag plaintext hobject (by omega)
      (show (UInt64.ofNat data.length).toNat ≤ ciphertext.bytes.length by
        rw [ciphertext.size_eq]; omega) (by omega) (by omega) with
    ⟨left, hleft, hrun⟩
  rw [hlen, hfront] at hleft hrun
  rw [aadBytes, haadLen, List.take_length, hint] at hrun
  have hnonneg : (0 : Int32) ≤ Int32.ofNat data.length := by
    rw [← hint]
    exact zero_le_sizeToInt (by rw [low32_of_lt (by omega)]; omega)
  have hother : Int32.ofNat data.length ≠ -2 := by
    intro hsame
    rw [hsame] at hnonneg
    exact absurd hnonneg (by decide)
  have hreaches : reachesFinal calls aad data =
      (textAccepted calls (some aad) (UInt64.ofNat aad.length) (UInt64.ofNat data.length) &&
        calls.tag) := rfl
  cases htext : textAccepted calls (some aad) (UInt64.ofNat aad.length)
      (UInt64.ofNat data.length) with
  | false =>
      rw [htext] at hrun hreaches
      refine ⟨_, _, hrun, ?_, ?_, fun h => absurd h (by decide)⟩ <;> simp [hreaches]
  | true =>
      rw [htext, if_pos rfl] at hrun
      rw [htext] at hreaches
      cases htag : calls.tag with
      | false =>
          rw [htag] at hrun hreaches
          refine ⟨_, _, hrun, ?_, ?_, fun h => absurd h (by decide)⟩ <;> simp [hreaches]
      | true =>
          rw [htag, if_pos rfl] at hrun
          rw [htag] at hreaches
          by_cases hright : calls.final = true ∧ tag = aead.tag key.bytes iv.bytes aad data
          · rw [if_pos hright] at hrun
            exact ⟨_, _, hrun, iff_of_true hnonneg ⟨hreaches, hright⟩,
              iff_of_false hother fun h => h.2 hright, fun _ => ⟨rfl, hleft⟩⟩
          · rw [if_neg hright] at hrun
            exact ⟨_, _, hrun, iff_of_false (by decide) fun h => hright h.2,
              iff_of_true rfl ⟨hreaches, hright⟩, fun h => absurd h (by decide)⟩

/-- What is printed of a decrypted text that leaves room for its NUL. -/
theorem showDecrypted_of_text {r : Int32} {left : Buffer 256} {text : List UInt8}
    (hlen : text.length ≤ 255)
    (hfront : 0 ≤ r → r = Int32.ofNat text.length ∧ left.bytes.take text.length = text) :
    ∃ after, showDecrypted r left =
      .ok (if 0 ≤ r then some (text.takeWhile (· ≠ 0)) else none, after) := by
  by_cases hr : 0 ≤ r
  · rcases hfront hr with ⟨hlength, htext⟩
    have hindex : r.toNatClampNeg = text.length := by
      rw [hlength, Int32.toNatClampNeg_ofNat_of_lt (by omega)]
    rcases printTerminated_of_lt left (show text.length < 256 by omega) with
      ⟨after, hprint, -⟩
    refine ⟨after, ?_⟩
    rw [showDecrypted, if_pos hr, if_pos hr, hindex, hprint, htext]
    rfl
  · refine ⟨left, ?_⟩
    rw [showDecrypted, if_neg hr, if_neg hr]
    rfl

/-- The changed ciphertext stays inside its array. -/
theorem tamper_of_front {ciphertext : Buffer 256} (tamperedCt : Buffer 256) {data : List UInt8}
    (hlen : data.length ≤ 256) (hfront : ciphertext.bytes.take data.length = data) :
    ∃ changed : Buffer 256,
      tamper ciphertext tamperedCt (Int32.ofNat data.length) = .ok changed ∧
        changed.bytes.take data.length = flipFirst data := by
  have hcount : (intToSize (Int32.ofNat data.length)).toNat = data.length :=
    toNat_intToSize_ofNat (by omega)
  rcases copyChanged_of_le tamperedCt 0x01 (show 0 < 256 by omega)
    (show data.length ≤ ciphertext.bytes.length by rw [ciphertext.size_eq]; omega) hlen with
    ⟨changed, hrun, hbytes⟩
  refine ⟨changed, ?_, ?_⟩
  · rw [tamper, hcount, hrun]
  · rw [hbytes, hfront]
    cases data <;> rfl

end Steps

/-! ## What the program prints -/

/-- For every key and IV, every text of at most 255 bytes, all associated data of at most
{lit}`INT_MAX` bytes, and every pattern of failing calls in its four library uses: {lit}`main`
exits with 1 exactly if the encryption fails.  Otherwise it shows the text, up to a NUL in it,
exactly if no call of the first decryption fails.  A change is reported as detected exactly if
that decryption reaches its last call and this call fails, be it for the tag or for another
reason; the changed ciphertext is reported as accepted exactly if no call fails and the tag is
that of the changed ciphertext. -/
theorem main_reports [DecidableEq τ] (aead : GcmFunction τ) (calls : MainCalls) (key : Buffer 32)
    (iv : Buffer 12) {plaintext aad tamperedAad : List UInt8}
    (ciphertext decrypted tamperedCt : Buffer 256) (tag : τ) (hplain : plaintext.length ≤ 255)
    (haad : aad.length < 2 ^ 31) (haad' : tamperedAad.length < 2 ^ 31) :
    ((reachesFinal calls.encrypt aad plaintext && calls.encrypt.final) = false →
      aesGcmMain aead calls key iv plaintext aad tamperedAad ciphertext decrypted tamperedCt tag =
        .ok (1, none)) ∧
    ((reachesFinal calls.encrypt aad plaintext && calls.encrypt.final) = true →
      ∃ (report : MainReport) (data : List UInt8),
        data = aead.crypt key.bytes iv.bytes plaintext ∧
        aesGcmMain aead calls key iv plaintext aad tamperedAad ciphertext decrypted tamperedCt
          tag = .ok (0, some report) ∧
        report.shown =
          (if reachesFinal calls.genuine aad plaintext && calls.genuine.final then
            some (plaintext.takeWhile (· ≠ 0))
          else none) ∧
        (report.ciphertextTest = .detected ↔
          reachesFinal calls.ciphertextTest aad plaintext = true ∧
            ¬(calls.ciphertextTest.final = true ∧
              aead.tag key.bytes iv.bytes aad data =
                aead.tag key.bytes iv.bytes aad (flipFirst data))) ∧
        (report.ciphertextTest = .unexpected ↔
          reachesFinal calls.ciphertextTest aad plaintext = true ∧
            calls.ciphertextTest.final = true ∧
              aead.tag key.bytes iv.bytes aad data =
                aead.tag key.bytes iv.bytes aad (flipFirst data)) ∧
        (report.aadDetected = true ↔
          reachesFinal calls.aadTest tamperedAad plaintext = true ∧
            ¬(calls.aadTest.final = true ∧
              aead.tag key.bytes iv.bytes aad data =
                aead.tag key.bytes iv.bytes tamperedAad data))) := by
  rcases aesGcmEncrypt_main aead calls.encrypt key iv ciphertext tag haad
    (show plaintext.length ≤ 256 by omega) with ⟨r, written, tagged, henc, hreaches, hmade⟩
  rw [hreaches]
  constructor
  · intro hfailed
    have hneg : r < 0 := by
      rw [← Int32.not_le]
      exact of_decide_eq_false hfailed
    simp only [aesGcmMain, henc, bind, Except.bind, if_pos hneg]
    rfl
  · intro hworked
    have hnonneg : 0 ≤ r := of_decide_eq_true hworked
    rcases hmade hnonneg with ⟨hlength, hfront, rfl⟩
    obtain ⟨data, hdata⟩ : ∃ data, data = aead.crypt key.bytes iv.bytes plaintext := ⟨_, rfl⟩
    have hsize : data.length = plaintext.length := by
      rw [hdata, aead.length_crypt]
    have hsame : ∀ calls aad, reachesFinal calls aad data = reachesFinal calls aad plaintext := by
      intro calls aad
      rw [reachesFinal, reachesFinal, hsize]
    rw [← hdata, ← hsize] at hfront
    rw [← hsize] at hlength
    rw [hlength, ← hsize, ← hdata] at henc
    have hsizeInt : intToSize (Int32.ofNat data.length) = UInt64.ofNat data.length :=
      intToSize_ofNat_length data (by omega)
    rcases aesGcmDecrypt_main aead calls.genuine key iv written decrypted
      (aead.tag key.bytes iv.bytes aad data) haad (by omega) hfront with
      ⟨r₁, left₁, hrun₁, hopened₁, _, htext₁⟩
    rcases @showDecrypted_of_text r₁ left₁ plaintext (by omega) (by
        intro h
        rcases htext₁ h with ⟨hr₁, hleft₁⟩
        rw [hsize] at hr₁ hleft₁
        rw [hdata, aead.crypt_crypt] at hleft₁
        exact ⟨hr₁, hleft₁⟩) with ⟨after, hshow⟩
    rcases tamper_of_front tamperedCt (by omega) hfront with ⟨changed, htamper, hchanged⟩
    rw [← length_flipFirst] at hchanged
    rcases aesGcmDecrypt_main aead calls.ciphertextTest key iv changed after
      (aead.tag key.bytes iv.bytes aad data) haad (by rw [length_flipFirst]; omega) hchanged with
      ⟨r₂, left₂, hrun₂, hopened₂, hrefused₂, _⟩
    rcases aesGcmDecrypt_main aead calls.aadTest key iv written left₂
      (aead.tag key.bytes iv.bytes aad data) haad' (by omega) hfront with
      ⟨r₃, left₃, hrun₃, _, hrefused₃, _⟩
    have hsame₂ : reachesFinal calls.ciphertextTest aad (flipFirst data) =
        reachesFinal calls.ciphertextTest aad plaintext := by
      rw [reachesFinal, length_flipFirst, ← hsame]
      rfl
    rw [length_flipFirst] at hrun₂
    rw [hsame₂] at hopened₂ hrefused₂
    rw [hsame] at hopened₁ hrefused₃
    refine ⟨{ shown := if 0 ≤ r₁ then some (plaintext.takeWhile (· ≠ 0)) else none
              ciphertextTest := if r₂ = -2 then Verdict.detected
                else if 0 ≤ r₂ then .unexpected else .nothing
              aadDetected := r₃ = -2 }, data, hdata, ?_, ?_, ?_, ?_, ?_⟩
    · have hpos : ¬Int32.ofNat data.length < 0 := by
        rw [← hlength, Int32.not_lt]
        exact hnonneg
      simp only [aesGcmMain, ← hsize, henc, bind, Except.bind, if_neg hpos, hsizeInt, hrun₁, hshow,
        htamper, hrun₂, hrun₃]
      rfl
    · by_cases hopened : 0 ≤ r₁
      · rcases hopened₁.mp hopened with ⟨hfirst, hlast, _⟩
        simp [hopened, hfirst, hlast]
      · have hnone : (reachesFinal calls.genuine aad plaintext && calls.genuine.final) = false := by
          by_contra hall
          rw [Bool.not_eq_false, Bool.and_eq_true_iff] at hall
          exact hopened (hopened₁.mpr ⟨hall.1, hall.2, rfl⟩)
        simp [hopened, hnone]
    · rw [← hrefused₂]
      show (if r₂ = -2 then Verdict.detected else if 0 ≤ r₂ then .unexpected else .nothing) =
        .detected ↔ _
      split
      · simp_all
      · split <;> simp_all
    · rw [← hopened₂]
      show (if r₂ = -2 then Verdict.detected else if 0 ≤ r₂ then .unexpected else .nothing) =
        .unexpected ↔ _
      have hexcluded : r₂ = -2 → ¬0 ≤ r₂ := by
        rintro rfl
        decide
      split
      · rename_i htwo
        simp [hexcluded htwo]
      · split <;> simp_all
    · rw [← hrefused₃]
      exact decide_eq_true_iff


/-- On the sample text without associated data the text is shown and the flipped bit is
detected. -/
theorem sample_main_reports :
    ∃ report : MainReport,
      aesGcmMain sampleGcm ⟨.success, .success, .success, .success⟩ (Buffer.zero 32)
        (Buffer.zero 12) sampleText [] [] (Buffer.zero 256) (Buffer.zero 256) (Buffer.zero 256)
        (Buffer.zero 16) = .ok (0, some report) ∧
      report.shown = some sampleText ∧ report.ciphertextTest = .detected := by
  rcases (main_reports sampleGcm ⟨.success, .success, .success, .success⟩ (Buffer.zero 32)
    (Buffer.zero 12) (Buffer.zero 256) (Buffer.zero 256) (Buffer.zero 256)
    (Buffer.zero 16) (show sampleText.length ≤ 255 by decide)
    (show ([] : List UInt8).length < 2 ^ 31 by decide)
    (show ([] : List UInt8).length < 2 ^ 31 by decide)).2 (by decide) with
    ⟨report, data, hdata, hrun, hshown, hdetected, _, _⟩
  subst hdata
  refine ⟨report, hrun, ?_, hdetected.mpr ⟨by decide, ?_⟩⟩
  · rw [hshown]
    decide
  · rintro ⟨_, hsame⟩
    exact absurd hsame (by decide +kernel)

/-! ## One IV for two texts -/

/-- For every key and IV and any two runs of {lit}`aes_gcm_encrypt` under them that return a
length, whatever associated data they are given and whatever calls fail: the XOR of the
ciphertexts is the XOR of the texts, over the bytes that both cover, as many as the low 32 bits
of a length say.  So for lengths of at most {lit}`INT_MAX`, where these are all bytes, whoever
knows the longer text and both ciphertexts can tell the shorter text. -/
theorem reused_iv_shows_difference {m : Nat} (aead : GcmFunction τ) (key : Buffer 32)
    (iv : Buffer 12) {calls calls' : GcmCalls} {aad aad' : Option (List UInt8)}
    {aadLen aadLen' : UInt64} {plaintext plaintext' : List UInt8}
    {plaintextLen plaintextLen' : UInt64} {ciphertext written : Buffer n}
    {ciphertext' written' : Buffer m} {tag tagged tag' tagged' : τ} {r r' : Int32}
    (haad : ∀ object, aad = some object → aadLen.toNat ≤ object.length)
    (haad' : ∀ object, aad' = some object → aadLen'.toNat ≤ object.length)
    (hplain : plaintextLen.toNat ≤ plaintext.length)
    (hplain' : plaintextLen'.toNat ≤ plaintext'.length)
    (hroom : plaintextLen.toNat ≤ n) (hroom' : plaintextLen'.toNat ≤ m)
    (hrun : aesGcmEncrypt aead calls key iv aad aadLen plaintext plaintextLen ciphertext tag =
      .ok (r, written, tagged))
    (hrun' : aesGcmEncrypt aead calls' key iv aad' aadLen' plaintext' plaintextLen' ciphertext'
      tag' = .ok (r', written', tagged'))
    (hr : 0 ≤ r) (hr' : 0 ≤ r') :
    List.zipWith (· ^^^ ·) (written.bytes.take (low32 plaintextLen))
        (written'.bytes.take (low32 plaintextLen')) =
      List.zipWith (· ^^^ ·) (plaintext.take (low32 plaintextLen))
        (plaintext'.take (low32 plaintextLen')) ∧
    (low32 plaintextLen' ≤ low32 plaintextLen →
      plaintext'.take (low32 plaintextLen') =
        List.zipWith (· ^^^ ·) (plaintext.take (low32 plaintextLen))
          (List.zipWith (· ^^^ ·) (written.bytes.take (low32 plaintextLen))
            (written'.bytes.take (low32 plaintextLen')))) := by
  rcases aesGcmEncrypt_returns aead key iv haad hplain hroom hrun hr with ⟨_, _, hwritten, _⟩
  rcases aesGcmEncrypt_returns aead key iv haad' hplain' hroom' hrun' hr' with
    ⟨_, _, hwritten', _⟩
  have hshown : List.zipWith (· ^^^ ·) (written.bytes.take (low32 plaintextLen))
      (written'.bytes.take (low32 plaintextLen')) =
        List.zipWith (· ^^^ ·) (plaintext.take (low32 plaintextLen))
          (plaintext'.take (low32 plaintextLen')) := by
    rw [hwritten, hwritten']
    exact zipWith_xorKeystream _ 0 _ _
  refine ⟨hshown, fun hshorter => ?_⟩
  rw [hshown, zipWith_xor_cancel]
  rw [List.length_take_of_le ((low32_le _).trans hplain),
    List.length_take_of_le ((low32_le _).trans hplain')]
  exact hshorter

/-- The sample text and one that differs in the first bit, under one key and IV: the
ciphertexts differ in that bit and nowhere else. -/
theorem sample_iv_reused :
    ∃ (written written' : Buffer 3) (tagged tagged' : Buffer 16),
      aesGcmEncrypt sampleGcm .success (Buffer.zero 32) (Buffer.zero 12) none 0 sampleText 3
        (Buffer.zero 3) (Buffer.zero 16) = .ok (3, written, tagged) ∧
      aesGcmEncrypt sampleGcm .success (Buffer.zero 32) (Buffer.zero 12) none 0
        [0x4E, 0x54, 0x41] 3 (Buffer.zero 3) (Buffer.zero 16) = .ok (3, written', tagged') ∧
      List.zipWith (· ^^^ ·) written.bytes written'.bytes = [0x01, 0x00, 0x00] := by
  have hrun : aesGcmEncrypt sampleGcm .success (Buffer.zero 32) (Buffer.zero 12) none 0
      sampleText 3 (Buffer.zero 3) (Buffer.zero 16) =
        .ok (3, Buffer.initialised 3 sampleSealed.1, sampleSealed.2) := by rfl
  have hrun' : aesGcmEncrypt sampleGcm .success (Buffer.zero 32) (Buffer.zero 12) none 0
      [0x4E, 0x54, 0x41] 3 (Buffer.zero 3) (Buffer.zero 16) =
        .ok (3, Buffer.initialised 3 tamperedCiphertext,
          sampleGcm.tag (Buffer.zero 32).bytes (Buffer.zero 12).bytes [] tamperedCiphertext) := by
    rfl
  refine ⟨_, _, _, _, hrun, hrun', ?_⟩
  exact (reused_iv_shows_difference sampleGcm (Buffer.zero 32) (Buffer.zero 12) (by simp)
    (by simp) (by decide) (by decide) (by decide) (by decide) hrun hrun' (by decide)
    (by decide)).1

end AutomotiveSecurity.AesGcm
