import AutomotiveSecurity.Foundations.HostLength
import AutomotiveSecurity.OpenSSL.Gcm

/-!
# The GCM functions of {lit}`aes_gcm.c`

{lit}`aes_gcm_encrypt` and {lit}`aes_gcm_decrypt` drive one GCM context each through the same
start, one call for the text and one for the tag.  All buffers are part of the call, so
that what a failing run leaves in them can be stated.

Main results:

- Theorems {lit}`aesGcmEncrypt_eq` and {lit}`aesGcmDecrypt_eq`: what the two functions return and
  leave, for every pattern of failures and all lengths.
- Theorem {lit}`failed_decryption_leaves`: what a failing decryption leaves in the plaintext
  buffer.

Current gaps:

- {lit}`ctx` is freed on every path; the heap is not modelled.
-/

namespace AutomotiveSecurity.AesGcm

open HostLength Memory OpenSSL

variable {τ : Type} {n : Nat}

/-! ## The two functions -/

/-- The calls up to the key and the IV, which both functions make alike. -/
def gcmSetUp (calls : GcmCalls) (key : Buffer 32) (iv : Buffer 12) :
    Except Fault (Option (GcmCtx τ)) := do
  let some ctx := gcmCtxNew calls.ctxNew | return none
  let some ctx := gcmInitCipher calls.initCipher ctx .aes256Gcm | return none
  let some ctx := gcmSetIvLen calls.setIvLen ctx 12 | return none
  gcmInitKey calls.initKey ctx key.bytes iv.bytes

/-- The set-up and the associated data, if there is any.  The {lit}`len` that this call
reports is overwritten before it is read. -/
def gcmStart (calls : GcmCalls) (key : Buffer 32) (iv : Buffer 12)
    (aad : Option (List UInt8)) (aadLen : UInt64) : Except Fault (Option (GcmCtx τ)) := do
  let some ctx ← gcmSetUp calls key iv | return none
  match aad with
  | none => return some ctx
  | some object =>
      if aadLen > 0 then
        gcmUpdateAad calls.updateAad ctx object (sizeToInt aadLen)
      else return some ctx

/-- {lit}`aes_gcm_encrypt`: the return value, {lit}`ciphertext` and {lit}`tag`.  A null pointer
for {lit}`aad` is {lit}`none`. -/
def aesGcmEncrypt (aead : GcmFunction τ) (calls : GcmCalls) (key : Buffer 32)
    (iv : Buffer 12) (aad : Option (List UInt8)) (aadLen : UInt64) (plaintext : List UInt8)
    (plaintextLen : UInt64) (ciphertext : Buffer n) (tag : τ) :
    Except Fault (Int32 × Buffer n × τ) := do
  let some ctx ← gcmStart calls key iv aad aadLen | return (-1, ciphertext, tag)
  let some (ctx, out) ← gcmEncryptUpdate aead calls.updateText ctx plaintext
    (sizeToInt plaintextLen) | return (-1, ciphertext, tag)
  let ciphertext ← ciphertext.store 0 out
  let len := Int32.ofNat out.length
  let ciphertextLen := len
  let some (ctx, out) := gcmEncryptFinal aead calls.final ctx | return (-1, ciphertext, tag)
  let ciphertext ← ciphertext.store len.toNatClampNeg out
  let ciphertextLen := ciphertextLen + Int32.ofNat out.length
  let some tagRead := gcmGetTag calls.tag ctx | return (-1, ciphertext, tag)
  return (ciphertextLen, ciphertext, tagRead)

/-- {lit}`aes_gcm_decrypt`: the return value and {lit}`plaintext`. -/
def aesGcmDecrypt [DecidableEq τ] (aead : GcmFunction τ) (calls : GcmCalls)
    (key : Buffer 32) (iv : Buffer 12) (aad : Option (List UInt8)) (aadLen : UInt64)
    (ciphertext : List UInt8) (ciphertextLen : UInt64) (tag : τ) (plaintext : Buffer n) :
    Except Fault (Int32 × Buffer n) := do
  let some ctx ← gcmStart calls key iv aad aadLen | return (-1, plaintext)
  let some (ctx, out) ← gcmDecryptUpdate aead calls.updateText ctx ciphertext
    (sizeToInt ciphertextLen) | return (-1, plaintext)
  let plaintext ← plaintext.store 0 out
  let len := Int32.ofNat out.length
  let plaintextLen := len
  let some ctx := gcmSetTag calls.tag ctx tag | return (-1, plaintext)
  let some out := gcmDecryptFinal aead calls.final ctx | return (-2, plaintext)
  let plaintext ← plaintext.store len.toNatClampNeg out
  return (plaintextLen + Int32.ofNat out.length, plaintext)

/-! ## The common start -/

/-- The context after a common start that has added the given associated data. -/
def startedCtx (key : Buffer 32) (iv : Buffer 12) (aad : List UInt8) : GcmCtx τ where
  cipher := some .aes256Gcm
  ivLen := 12
  keyed := some (key.bytes, iv.bytes)
  aad := aad
  ciphertext := []
  tag := none

/-- The set-up either reaches a context with the whole key and the whole IV or none. -/
theorem gcmSetUp_eq (calls : GcmCalls) (key : Buffer 32) (iv : Buffer 12) :
    (gcmSetUp calls key iv : Except Fault (Option (GcmCtx τ))) =
      .ok (if calls.ctxNew && calls.initCipher && calls.setIvLen && calls.initKey then
          some (startedCtx key iv [])
        else none) := by
  have hkey : load key.bytes AeadCipher.aes256Gcm.keyLength = .ok key.bytes :=
    load_whole key.size_eq
  have hiv : load iv.bytes 12 = .ok iv.bytes := load_whole iv.size_eq
  cases hnew : calls.ctxNew with
  | false => simp [gcmSetUp, gcmCtxNew, hnew, pure, Except.pure]
  | true =>
    cases hcipher : calls.initCipher with
    | false => simp [gcmSetUp, gcmCtxNew, gcmInitCipher, hnew, hcipher, pure, Except.pure]
    | true =>
      cases hivLen : calls.setIvLen with
      | false =>
          simp [gcmSetUp, gcmCtxNew, gcmInitCipher, gcmSetIvLen, hnew, hcipher, hivLen, pure,
            Except.pure]
      | true =>
        cases hinit : calls.initKey with
        | false =>
            simp [gcmSetUp, gcmCtxNew, gcmInitCipher, gcmSetIvLen, gcmInitKey, hnew, hcipher,
              hivLen, hinit, pure, Except.pure]
        | true =>
            simp [gcmSetUp, gcmCtxNew, gcmInitCipher, gcmSetIvLen, gcmInitKey, hnew, hcipher,
              hivLen, hinit, hkey, hiv, startedCtx, pure, Except.pure, bind, Except.bind]

/-- The associated data that reaches the context: none without a pointer, otherwise as
many bytes as the converted length says. -/
def processedAad (aad : Option (List UInt8)) (aadLen : UInt64) : List UInt8 :=
  match aad with
  | none => []
  | some object => object.take (low32 aadLen)

/-- No call up to the associated data fails. -/
def startAccepted (calls : GcmCalls) (aad : Option (List UInt8)) (aadLen : UInt64) : Bool :=
  calls.ctxNew && calls.initCipher && calls.setIvLen && calls.initKey &&
    (aad.isNone || aadLen == 0 || (calls.updateAad && !decide (sizeToInt aadLen < 0)))

/-- A length that stays inside an object and does not arrive negative still does so. -/
theorem load_sizeToInt {object : List UInt8} {len : UInt64} (hlen : len.toNat ≤ object.length)
    (hnonneg : ¬sizeToInt len < 0) :
    load object (sizeToInt len).toNatClampNeg = .ok (object.take (low32 len)) := by
  rw [toNatClampNeg_sizeToInt hnonneg]
  exact load_of_le ((low32_le len).trans hlen)

/-- The call for the associated data adds what the converted length says, or fails. -/
theorem gcmUpdateAad_started (succeeds : Bool) (key : Buffer 32) (iv : Buffer 12)
    {object : List UInt8} {len : UInt64} (hlen : len.toNat ≤ object.length) :
    gcmUpdateAad succeeds (startedCtx key iv [] : GcmCtx τ) object (sizeToInt len) =
      .ok (if succeeds && !decide (sizeToInt len < 0) then
          some (startedCtx key iv (object.take (low32 len)))
        else none) := by
  show (if succeeds = true ∧ ¬sizeToInt len < 0 then _ else _) = _
  by_cases hcall : succeeds = true ∧ ¬sizeToInt len < 0
  · rw [if_pos hcall, load_sizeToInt hlen hcall.2, if_pos (by simpa using hcall)]
    rfl
  · rw [if_neg hcall, if_neg (by simpa using hcall)]
    rfl

theorem gcmStart_eq (calls : GcmCalls) (key : Buffer 32) (iv : Buffer 12)
    {aad : Option (List UInt8)} {aadLen : UInt64}
    (haad : ∀ object, aad = some object → aadLen.toNat ≤ object.length) :
    (gcmStart calls key iv aad aadLen : Except Fault (Option (GcmCtx τ))) =
      .ok (if startAccepted calls aad aadLen then
          some (startedCtx key iv (processedAad aad aadLen))
        else none) := by
  rw [gcmStart, gcmSetUp_eq]
  cases hsetUp : calls.ctxNew && calls.initCipher && calls.setIvLen && calls.initKey with
  | false => simp [startAccepted, hsetUp, bind, Except.bind, pure, Except.pure]
  | true =>
    cases aad with
    | none => simp [startAccepted, hsetUp, processedAad, bind, Except.bind, pure, Except.pure]
    | some object =>
      by_cases hnil : aadLen = 0
      · simp [startAccepted, hsetUp, processedAad, low32, hnil, bind, Except.bind, pure,
          Except.pure]
      · have hpos : aadLen > 0 := UInt64.pos_iff_ne_zero.mpr hnil
        simp [startAccepted, hsetUp, processedAad, hnil, hpos, bind, Except.bind,
          gcmUpdateAad_started _ key iv (haad object rfl)]

/-! ## The text -/

/-- No call up to the text fails. -/
def textAccepted (calls : GcmCalls) (aad : Option (List UInt8)) (aadLen textLen : UInt64) :
    Bool :=
  startAccepted calls aad aadLen && (calls.updateText && !decide (sizeToInt textLen < 0))

/-- A call for text processes what the converted length says, or fails. -/
theorem gcmCryptText_started (aead : GcmFunction τ) (succeeds : Bool) (key : Buffer 32)
    (iv : Buffer 12) (aad : List UInt8) {text : List UInt8} {len : UInt64}
    (hlen : len.toNat ≤ text.length) :
    gcmCryptText aead succeeds (startedCtx key iv aad) text (sizeToInt len) =
      .ok (if succeeds && !decide (sizeToInt len < 0) then
          some (text.take (low32 len),
            aead.crypt key.bytes iv.bytes (text.take (low32 len)))
        else none) := by
  show (if succeeds = true ∧ ¬sizeToInt len < 0 then _ else _) = _
  by_cases hcall : succeeds = true ∧ ¬sizeToInt len < 0
  · rw [if_pos hcall, load_sizeToInt hlen hcall.2, if_pos (by simpa using hcall)]
    rfl
  · rw [if_neg hcall, if_neg (by simpa using hcall)]
    rfl

/-- The text call writes to the start of the output buffer, the last call behind it.  The
length that EVP reports is the converted length. -/
theorem store_crypt (aead : GcmFunction τ) (key iv : List UInt8) {text : List UInt8}
    {len : UInt64} (hlen : len.toNat ≤ text.length) (buffer : Buffer n)
    (hroom : len.toNat ≤ n) :
    ∃ written : Buffer n,
      buffer.store 0 (aead.crypt key iv (text.take (low32 len))) = .ok written ∧
        written.bytes = aead.crypt key iv (text.take (low32 len)) ++
          buffer.bytes.drop (low32 len) ∧
        Int32.ofNat (aead.crypt key iv (text.take (low32 len))).length =
          sizeToInt len ∧
        (¬sizeToInt len < 0 →
          written.store (sizeToInt len).toNatClampNeg [] = .ok written) := by
  have hle : low32 len ≤ len.toNat := low32_le len
  have hout : (aead.crypt key iv (text.take (low32 len))).length =
      low32 len := by
    exact aead.length_crypt_take key iv (hle.trans hlen)
  have hfits : 0 + (aead.crypt key iv (text.take (low32 len))).length ≤ n := by
    omega
  refine ⟨_, store_of_le buffer hfits, ?_, ?_, ?_⟩
  · simp only [Buffer.overwrite, List.take_zero, List.nil_append, hout, Nat.zero_add]
  · rw [hout, sizeToInt_eq_ofNat]
  · intro hnonneg
    have hbehind : (sizeToInt len).toNatClampNeg + ([] : List UInt8).length ≤ n := by
      rw [toNatClampNeg_sizeToInt hnonneg, List.length_nil]
      omega
    rw [store_of_le _ hbehind, Buffer.overwrite_nil]

/-- What {lit}`aes_gcm_encrypt` returns and leaves in its buffers, for every pattern of
failures. -/
theorem aesGcmEncrypt_eq (aead : GcmFunction τ) (calls : GcmCalls) (key : Buffer 32)
    (iv : Buffer 12) {aad : Option (List UInt8)} {aadLen : UInt64} {plaintext : List UInt8}
    {plaintextLen : UInt64} (ciphertext : Buffer n) (tag : τ)
    (haad : ∀ object, aad = some object → aadLen.toNat ≤ object.length)
    (hplain : plaintextLen.toNat ≤ plaintext.length) (hroom : plaintextLen.toNat ≤ n) :
    ∃ written : Buffer n,
      written.bytes =
        aead.crypt key.bytes iv.bytes (plaintext.take (low32 plaintextLen)) ++
          ciphertext.bytes.drop (low32 plaintextLen) ∧
      aesGcmEncrypt aead calls key iv aad aadLen plaintext plaintextLen ciphertext tag =
        .ok (if textAccepted calls aad aadLen plaintextLen then
            if calls.final && calls.tag then
              (sizeToInt plaintextLen, written,
                (aead.encrypt key.bytes iv.bytes (processedAad aad aadLen)
                  (plaintext.take (low32 plaintextLen))).2)
            else (-1, written, tag)
          else (-1, ciphertext, tag)) := by
  rcases store_crypt aead key.bytes iv.bytes hplain ciphertext hroom with
    ⟨written, hstore, hwritten, hlen, hbehind⟩
  refine ⟨written, hwritten, ?_⟩
  simp only [aesGcmEncrypt, gcmStart_eq calls key iv haad, bind, Except.bind, pure, Except.pure]
  cases hstart : startAccepted calls aad aadLen with
  | false => simp [textAccepted, hstart]
  | true =>
    simp only [if_true, gcmEncryptUpdate, bind, Except.bind, pure, Except.pure,
      gcmCryptText_started aead calls.updateText key iv (processedAad aad aadLen) hplain]
    cases hupdate : calls.updateText && !decide (sizeToInt plaintextLen < 0) with
    | false => simp [textAccepted, hupdate]
    | true =>
      have haccepted : textAccepted calls aad aadLen plaintextLen = true := by
        rw [textAccepted, hstart, hupdate]
        rfl
      have hnonneg : ¬sizeToInt plaintextLen < 0 := by
        simpa using (Bool.and_eq_true_iff.mp hupdate).2
      simp only [haccepted, if_true, hstore, hlen, gcmEncryptFinal, startedCtx]
      cases hfinal : calls.final with
      | false => simp
      | true =>
        simp only [if_true, hbehind hnonneg, gcmGetTag]
        cases htag : calls.tag with
        | false => simp
        | true => simp [StreamAead.encrypt]

/-- A returned length is the converted one, and ciphertext and tag cover as many bytes as
the converted lengths say. -/
theorem aesGcmEncrypt_returns (aead : GcmFunction τ) (key : Buffer 32) (iv : Buffer 12)
    {calls : GcmCalls} {aad : Option (List UInt8)} {aadLen : UInt64} {plaintext : List UInt8}
    {plaintextLen : UInt64} {ciphertext written : Buffer n} {tag tagged : τ} {r : Int32}
    (haad : ∀ object, aad = some object → aadLen.toNat ≤ object.length)
    (hplain : plaintextLen.toNat ≤ plaintext.length) (hroom : plaintextLen.toNat ≤ n)
    (hrun : aesGcmEncrypt aead calls key iv aad aadLen plaintext plaintextLen ciphertext tag =
      .ok (r, written, tagged)) (hr : 0 ≤ r) :
    textAccepted calls aad aadLen plaintextLen = true ∧ r = sizeToInt plaintextLen ∧
      written.bytes.take (low32 plaintextLen) =
        aead.crypt key.bytes iv.bytes (plaintext.take (low32 plaintextLen)) ∧
      tagged = aead.tag key.bytes iv.bytes (processedAad aad aadLen)
        (aead.crypt key.bytes iv.bytes (plaintext.take (low32 plaintextLen))) := by
  rcases aesGcmEncrypt_eq aead calls key iv ciphertext tag haad hplain hroom with
    ⟨result, hwritten, hresult⟩
  have hlen : (aead.crypt key.bytes iv.bytes (plaintext.take (low32 plaintextLen))).length =
      low32 plaintextLen :=
    aead.length_crypt_take key.bytes iv.bytes ((low32_le plaintextLen).trans hplain)
  have hminus : ¬(0 : Int32) ≤ -1 := by decide
  rw [hrun] at hresult
  have hvalue := Except.ok.inj hresult
  by_cases htext : textAccepted calls aad aadLen plaintextLen = true
  · rw [if_pos htext] at hvalue
    by_cases hend : (calls.final && calls.tag) = true
    · rw [if_pos hend] at hvalue
      cases hvalue
      refine ⟨htext, rfl, ?_, rfl⟩
      rw [hwritten, List.take_left' hlen]
    · rw [if_neg hend] at hvalue
      cases hvalue
      exact absurd hr hminus
  · rw [if_neg htext] at hvalue
    cases hvalue
    exact absurd hr hminus

/-- Lengths that do not arrive negative are accepted if no call fails on its own. -/
theorem textAccepted_of_low32 (aad : Option (List UInt8)) {aadLen textLen : UInt64}
    (hlow : low32 textLen < 2 ^ 31) (haad : aad.isSome → low32 aadLen < 2 ^ 31) :
    textAccepted .success aad aadLen textLen = true := by
  have htext : ¬sizeToInt textLen < 0 := sizeToInt_nonneg_iff.mpr hlow
  cases aad with
  | none => simp [textAccepted, startAccepted, GcmCalls.success, htext]
  | some object =>
      have hobject : ¬sizeToInt aadLen < 0 := sizeToInt_nonneg_iff.mpr (haad rfl)
      simp [textAccepted, startAccepted, GcmCalls.success, htext, hobject]

/-- Without a failing call, lengths that do not arrive negative are encrypted with
success. -/
theorem aesGcmEncrypt_of_low32 (aead : GcmFunction τ) (key : Buffer 32) (iv : Buffer 12)
    {aad : Option (List UInt8)} {aadLen : UInt64} {plaintext : List UInt8}
    {plaintextLen : UInt64} (ciphertext : Buffer n) (tag : τ)
    (haad : ∀ object, aad = some object → aadLen.toNat ≤ object.length)
    (hplain : plaintextLen.toNat ≤ plaintext.length) (hroom : plaintextLen.toNat ≤ n)
    (hlow : low32 plaintextLen < 2 ^ 31) (haadLow : aad.isSome → low32 aadLen < 2 ^ 31) :
    ∃ written : Buffer n,
      aesGcmEncrypt aead .success key iv aad aadLen plaintext plaintextLen ciphertext tag =
        .ok (sizeToInt plaintextLen, written,
          aead.tag key.bytes iv.bytes (processedAad aad aadLen)
            (aead.crypt key.bytes iv.bytes (plaintext.take (low32 plaintextLen)))) ∧
      written.bytes = aead.crypt key.bytes iv.bytes (plaintext.take (low32 plaintextLen)) ++
        ciphertext.bytes.drop (low32 plaintextLen) := by
  rcases aesGcmEncrypt_eq aead .success key iv ciphertext tag haad hplain hroom with
    ⟨written, hwritten, hrun⟩
  rw [if_pos (textAccepted_of_low32 aad hlow haadLow), if_pos (by rfl)] at hrun
  exact ⟨written, hrun, hwritten⟩

/-- What {lit}`aes_gcm_decrypt` returns and leaves in {lit}`plaintext`, for every pattern of
failures. -/
theorem aesGcmDecrypt_eq [DecidableEq τ] (aead : GcmFunction τ) (calls : GcmCalls)
    (key : Buffer 32) (iv : Buffer 12) {aad : Option (List UInt8)} {aadLen : UInt64}
    {ciphertext : List UInt8} {ciphertextLen : UInt64} (tag : τ) (plaintext : Buffer n)
    (haad : ∀ object, aad = some object → aadLen.toNat ≤ object.length)
    (hcipher : ciphertextLen.toNat ≤ ciphertext.length) (hroom : ciphertextLen.toNat ≤ n) :
    ∃ written : Buffer n,
      written.bytes =
        aead.crypt key.bytes iv.bytes (ciphertext.take (low32 ciphertextLen)) ++
          plaintext.bytes.drop (low32 ciphertextLen) ∧
      aesGcmDecrypt aead calls key iv aad aadLen ciphertext ciphertextLen tag plaintext =
        .ok (if textAccepted calls aad aadLen ciphertextLen then
            if calls.tag then
              if calls.final = true ∧
                  tag = aead.tag key.bytes iv.bytes (processedAad aad aadLen)
                    (ciphertext.take (low32 ciphertextLen)) then
                (sizeToInt ciphertextLen, written)
              else (-2, written)
            else (-1, written)
          else (-1, plaintext)) := by
  rcases store_crypt aead key.bytes iv.bytes hcipher plaintext hroom with
    ⟨written, hstore, hwritten, hlen, hbehind⟩
  refine ⟨written, hwritten, ?_⟩
  simp only [aesGcmDecrypt, gcmStart_eq calls key iv haad, bind, Except.bind, pure, Except.pure]
  cases hstart : startAccepted calls aad aadLen with
  | false => simp [textAccepted, hstart]
  | true =>
    simp only [if_true, gcmDecryptUpdate, bind, Except.bind, pure, Except.pure,
      gcmCryptText_started aead calls.updateText key iv (processedAad aad aadLen) hcipher]
    cases hupdate : calls.updateText && !decide (sizeToInt ciphertextLen < 0) with
    | false => simp [textAccepted, hupdate]
    | true =>
      have haccepted : textAccepted calls aad aadLen ciphertextLen = true := by
        rw [textAccepted, hstart, hupdate]
        rfl
      have hnonneg : ¬sizeToInt ciphertextLen < 0 := by
        simpa using (Bool.and_eq_true_iff.mp hupdate).2
      simp only [haccepted, if_true, hstore, hlen, gcmSetTag, startedCtx]
      cases htag : calls.tag with
      | false => simp
      | true =>
        simp only [if_true, gcmDecryptFinal, List.nil_append]
        by_cases hright : calls.final = true ∧
            tag = aead.tag key.bytes iv.bytes (processedAad aad aadLen)
              (ciphertext.take (low32 ciphertextLen))
        · simp [hright, hbehind hnonneg]
        · simp only [if_neg hright]

/-! ## Lengths up to {lit}`INT_MAX` -/

/-- The bytes of the caller's associated data: none for a null pointer. -/
def aadBytes (aad : Option (List UInt8)) (aadLen : UInt64) : List UInt8 :=
  match aad with
  | none => []
  | some object => object.take aadLen.toNat

theorem processedAad_of_max (aad : Option (List UInt8)) {aadLen : UInt64}
    (hmax : aadLen.toNat < 2 ^ 31) : processedAad aad aadLen = aadBytes aad aadLen := by
  cases aad with
  | none => rfl
  | some object => rw [processedAad, aadBytes, low32_of_max hmax]

/-- Without a failing call lengths up to {lit}`INT_MAX` are accepted. -/
theorem textAccepted_success (aad : Option (List UInt8)) {aadLen textLen : UInt64}
    (haadMax : aadLen.toNat < 2 ^ 31) (hmax : textLen.toNat < 2 ^ 31) :
    textAccepted .success aad aadLen textLen = true := by
  apply textAccepted_of_low32
  · rwa [low32_of_max hmax]
  · intro _
    rwa [low32_of_max haadMax]

/-- What {lit}`aes_gcm_decrypt` returns and leaves when no length exceeds {lit}`INT_MAX`. -/
theorem aesGcmDecrypt_of_max [DecidableEq τ] (aead : GcmFunction τ) (calls : GcmCalls)
    (key : Buffer 32) (iv : Buffer 12) {aad : Option (List UInt8)} {aadLen : UInt64}
    {ciphertext : List UInt8} {ciphertextLen : UInt64} (tag : τ) (plaintext : Buffer n)
    (haad : ∀ object, aad = some object → aadLen.toNat ≤ object.length)
    (haadMax : aadLen.toNat < 2 ^ 31) (hcipher : ciphertextLen.toNat ≤ ciphertext.length)
    (hmax : ciphertextLen.toNat < 2 ^ 31) (hroom : ciphertextLen.toNat ≤ n) :
    ∃ written : Buffer n,
      written.bytes.take ciphertextLen.toNat =
        aead.crypt key.bytes iv.bytes (ciphertext.take ciphertextLen.toNat) ∧
      aesGcmDecrypt aead calls key iv aad aadLen ciphertext ciphertextLen tag plaintext =
        .ok (if textAccepted calls aad aadLen ciphertextLen then
            if calls.tag then
              if calls.final = true ∧
                  tag = aead.tag key.bytes iv.bytes (aadBytes aad aadLen)
                    (ciphertext.take ciphertextLen.toNat) then
                (sizeToInt ciphertextLen, written)
              else (-2, written)
            else (-1, written)
          else (-1, plaintext)) := by
  rcases aesGcmDecrypt_eq aead calls key iv tag plaintext haad hcipher hroom with
    ⟨written, hwritten, hrun⟩
  rw [low32_of_max hmax, processedAad_of_max aad haadMax] at hrun
  rw [low32_of_max hmax] at hwritten
  refine ⟨written, ?_, hrun⟩
  rw [hwritten, List.take_left' (aead.length_crypt_take key.bytes iv.bytes hcipher)]

/-! ## Samples -/

/-- AES-256-GCM under a zero key and a zero IV, on the texts of the samples below; the
tags of all other texts are left zero. -/
def sampleGcm : GcmFunction (Buffer 16) where
  keystream key iv position :=
    if key = List.replicate 32 0 ∧ iv = List.replicate 12 0 then
      [0xCE, 0xA7, 0x40].getD position 0
    else 0
  tag key iv aad ciphertext :=
    if key ≠ List.replicate 32 0 ∨ iv ≠ List.replicate 12 0 ∨ aad ≠ [] then Buffer.zero 16
    else if ciphertext = [0x81, 0xF3, 0x01] then
      ⟨[0xE7, 0x29, 0x2C, 0xAD, 0x42, 0xAA, 0x06, 0x01,
        0xD9, 0x33, 0x22, 0x60, 0xF9, 0x12, 0x53, 0x51], rfl⟩
    else if ciphertext = [0x80, 0xF3, 0x01] then
      ⟨[0xA4, 0xFA, 0xA8, 0x50, 0x44, 0x34, 0x3A, 0x73,
        0xA1, 0x66, 0x27, 0xC2, 0x88, 0x8F, 0x77, 0x92], rfl⟩
    else Buffer.zero 16

/-- The text {lit}`OTA`. -/
def sampleText : List UInt8 := [0x4F, 0x54, 0x41]

/-- The sample text encrypted, with its tag. -/
def sampleSealed : List UInt8 × Buffer 16 :=
  sampleGcm.encrypt (Buffer.zero 32).bytes (Buffer.zero 12).bytes [] sampleText

/-- The ciphertext of the sample with its first bit flipped, as in the tampering test of
{lit}`main`. -/
def tamperedCiphertext : List UInt8 := [0x80, 0xF3, 0x01]

/-! ## What a failing decryption leaves -/

/-- For every input with a length up to {lit}`INT_MAX`, every pattern of failures and every
content of the plaintext buffer: {lit}`aes_gcm_decrypt` returns, and if it returns a negative
value, then this is -1 and the buffer is unchanged as long as a call up to the one for the
ciphertext has failed.  Otherwise it is -1 for a tag that could not be set and -2 after
{lit}`EVP_DecryptFinal_ex`, and the buffer holds the decryption that has not been authenticated
in exactly its first {lit}`ciphertext_len` bytes. -/
theorem failed_decryption_leaves [DecidableEq τ] (aead : GcmFunction τ) (calls : GcmCalls)
    (key : Buffer 32) (iv : Buffer 12) (aad : Option (List UInt8))
    (aadLen : UInt64) (ciphertext : List UInt8) (ciphertextLen : UInt64) (tag : τ)
    (plaintext : Buffer n)
    (haad : ∀ object, aad = some object → aadLen.toNat ≤ object.length)
    (hcipher : ciphertextLen.toNat ≤ ciphertext.length)
    (hmax : ciphertextLen.toNat < 2 ^ 31) (hroom : ciphertextLen.toNat ≤ n) :
    ∃ r left,
      aesGcmDecrypt aead calls key iv aad aadLen ciphertext ciphertextLen tag plaintext =
        .ok (r, left) ∧
      (r < 0 →
        (textAccepted calls aad aadLen ciphertextLen = false → r = -1 ∧ left = plaintext) ∧
        (textAccepted calls aad aadLen ciphertextLen = true →
          r = (if calls.tag then -2 else -1) ∧
          left.bytes =
            aead.crypt key.bytes iv.bytes (ciphertext.take ciphertextLen.toNat) ++
              plaintext.bytes.drop ciphertextLen.toNat)) := by
  rcases aesGcmDecrypt_eq aead calls key iv tag plaintext haad hcipher hroom with
    ⟨written, hwritten, hrun⟩
  rw [low32_of_max hmax] at hwritten
  cases htext : textAccepted calls aad aadLen ciphertextLen with
  | false =>
      rw [htext] at hrun
      exact ⟨-1, plaintext, hrun, fun _ => ⟨fun _ => ⟨rfl, rfl⟩, fun h => absurd h (by simp)⟩⟩
  | true =>
      rw [htext, if_pos rfl] at hrun
      -- Every later outcome leaves the written buffer.
      cases htag : calls.tag with
      | false =>
          rw [htag] at hrun
          exact ⟨-1, written, hrun, fun _ => ⟨fun h => absurd h (by simp), fun _ =>
            ⟨rfl, hwritten⟩⟩⟩
      | true =>
          rw [htag, if_pos rfl] at hrun
          split at hrun
          · refine ⟨_, written, hrun, fun hneg => ?_⟩
            exact absurd hneg (sizeToInt_nonneg_of_max hmax)
          · exact ⟨-2, written, hrun, fun _ => ⟨fun h => absurd h (by simp), fun _ =>
              ⟨rfl, hwritten⟩⟩⟩

/-- The tampered ciphertext is refused, but its decryption has replaced the start of the
plaintext buffer. -/
theorem tampered_ciphertext_decrypted :
    aesGcmDecrypt sampleGcm .success (Buffer.zero 32) (Buffer.zero 12) none 0
        tamperedCiphertext 3 sampleSealed.2 (Buffer.zero 4) =
      .ok (-2, ⟨[0x4E, 0x54, 0x41, 0x00], rfl⟩) ∧
    (⟨[0x4E, 0x54, 0x41, 0x00], rfl⟩ : Buffer 4) ≠ Buffer.zero 4 := by
  constructor
  · rfl
  · decide

/-- What the theorem says about this run. -/
theorem tampered_ciphertext_leaves :
    ∃ left,
      aesGcmDecrypt sampleGcm .success (Buffer.zero 32) (Buffer.zero 12) none 0
          tamperedCiphertext 3 sampleSealed.2 (Buffer.zero 4) = .ok (-2, left) ∧
        left.bytes =
          sampleGcm.crypt (Buffer.zero 32).bytes (Buffer.zero 12).bytes tamperedCiphertext ++
            [0x00] := by
  rcases failed_decryption_leaves sampleGcm .success (Buffer.zero 32) (Buffer.zero 12) none 0
      tamperedCiphertext 3 sampleSealed.2 (Buffer.zero 4) (by simp) (by decide) (by decide)
      (by decide) with
    ⟨r, left, hrun, hleft⟩
  have hrefused : Except.map Prod.fst (aesGcmDecrypt sampleGcm .success (Buffer.zero 32)
      (Buffer.zero 12) none 0 tamperedCiphertext 3 sampleSealed.2 (Buffer.zero 4)) =
        .ok (-2) := rfl
  rw [hrun] at hrefused
  have hneg : r < 0 := by
    rw [show r = -2 from Except.ok.inj hrefused]
    decide
  rcases (hleft hneg).2 (by decide) with ⟨rfl, hbytes⟩
  exact ⟨left, hrun, hbytes⟩

end AutomotiveSecurity.AesGcm
