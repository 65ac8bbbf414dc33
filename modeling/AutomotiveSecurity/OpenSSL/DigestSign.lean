import AutomotiveSecurity.OpenSSL.DigestVerify

/-!
# The digest-sign calls of OpenSSL

A signature is made with a context that is created, keyed and fed, and two calls of
{lit}`EVP_DigestSignFinal`: the first one asks for the greatest length a signature can have,
the second one writes the signature.  Both programs that sign ignore the results of all
calls.

Main results:

- Theorem {lit}`digestSign_returns`: what the signature and its length are afterwards, for
  every pattern of failing calls.
- Theorem {lit}`digestSign_success`: when no call fails, the signature is written.
- Theorem {lit}`digestVerify_signed_iff`: when a signature made under failures is accepted
  by a check under failures.

Current gaps:

- {lit}`EVP_MD_CTX_new` always succeeds; without a context the first call on it would
  dereference a null pointer.
- An update on a context whose initialisation has failed only fails; some releases of the
  library crash there.
- Signing is a function of the message; a scheme that signs at random is covered by one
  function for each choice.
-/

namespace AutomotiveSecurity.OpenSSL

open Memory

/-! ## Calls -/

/-- A private key: the signature it gives a message, and the greatest length of one. -/
structure Signer where
  sign : List UInt8 → List UInt8
  maxSize : Nat
  sign_le : ∀ message, (sign message).length ≤ maxSize

/-- Whether each call of one signing succeeds; {lit}`size` is the call that asks for the
length. -/
structure DigestSignCalls where
  init : Bool
  update : Bool
  size : Bool
  final : Bool
deriving DecidableEq, Repr

/-- The pattern in which no call fails. -/
def DigestSignCalls.success : DigestSignCalls where
  init := true
  update := true
  size := true
  final := true

/-- An {lit}`EVP_MD_CTX` used for signing. -/
structure DigestSignCtx where
  keyed : Bool
  held : List UInt8
deriving DecidableEq, Repr

/-- {lit}`EVP_DigestSignInit(ctx, NULL, EVP_sha256(), NULL, pkey)` on a new context. -/
def evpDigestSignInit (succeeds : Bool) : DigestSignCtx where
  keyed := succeeds
  held := []

/-- {lit}`EVP_DigestSignUpdate(ctx, data, count)`. -/
def evpDigestSignUpdate (succeeds : Bool) (ctx : DigestSignCtx) (data : List UInt8) :
    DigestSignCtx :=
  if ctx.keyed && succeeds then { ctx with held := ctx.held ++ data } else ctx

/-- {lit}`EVP_DigestSignFinal(ctx, NULL, &siglen)`. -/
def evpDigestSignSize (signer : Signer) (succeeds : Bool) (ctx : DigestSignCtx)
    (sigLen : UInt64) : UInt64 :=
  if ctx.keyed && succeeds then UInt64.ofNat signer.maxSize else sigLen

/-- A signature and its length, written to the array of a program. -/
def writeSignature (sign : List UInt8 → List UInt8) (message : List UInt8) {n : Nat}
    (sig : Buffer n) : Except Fault (Buffer n × UInt64) := do
  let sig ← sig.store 0 (sign message)
  return (sig, UInt64.ofNat (sign message).length)

/-- {lit}`EVP_DigestSignFinal(ctx, sig, &siglen)`.  It refuses a length that does not leave
room for every signature, and a failed call writes nothing. -/
def evpDigestSignFinal (signer : Signer) (succeeds : Bool) (ctx : DigestSignCtx) {n : Nat}
    (sig : Buffer n) (sigLen : UInt64) : Except Fault (Buffer n × UInt64) :=
  if ctx.keyed && succeeds && decide (signer.maxSize ≤ sigLen.toNat) then
    writeSignature signer.sign ctx.held sig
  else
    return (sig, sigLen)

/-! ## The sequence of calls -/

/-- What a signer or a checker has fed to its context. -/
def fed (update : Bool) (data : List UInt8) : List UInt8 :=
  if update then data else []

@[simp]
theorem fed_true (data : List UInt8) : fed true data = data :=
  rfl

@[simp]
theorem fed_false (data : List UInt8) : fed false data = [] :=
  rfl

theorem fed_eq_iff {data : List UInt8} (hdata : data ≠ []) {b c : Bool} :
    fed b data = fed c data ↔ b = c := by
  cases b <;> cases c <;> simp [hdata, Ne.symm hdata]

section Sequence

variable (signer : Signer) (calls : DigestSignCalls) {n : Nat} (data : List UInt8)
  (sig : Buffer n) (sigLen : UInt64)

/-- The signature and its length after all calls. -/
def digestSign : Except Fault (Buffer n × UInt64) :=
  let ctx := evpDigestSignInit calls.init
  let ctx := evpDigestSignUpdate calls.update ctx data
  let sigLen := evpDigestSignSize signer calls.size ctx sigLen
  evpDigestSignFinal signer calls.final ctx sig sigLen

/-- The length after the first {lit}`EVP_DigestSignFinal`. -/
def announcedSize : UInt64 :=
  if calls.init && calls.size then UInt64.ofNat signer.maxSize else sigLen

/-- A signature gets written. -/
def Made : Prop :=
  calls.init = true ∧ calls.final = true ∧
    signer.maxSize ≤ (announcedSize signer calls sigLen).toNat

instance : Decidable (Made signer calls sigLen) :=
  inferInstanceAs (Decidable (_ ∧ _))

variable {signer calls data sig sigLen}

/-- The last call finds the fed bytes and the announced length. -/
theorem digestSign_eq :
    digestSign signer calls data sig sigLen =
      evpDigestSignFinal signer calls.final
        { keyed := calls.init, held := if calls.init then fed calls.update data else [] } sig
        (announcedSize signer calls sigLen) := by
  rcases calls with ⟨init, update, size, final⟩
  cases init <;> cases update <;> rfl

/-- A signature that is made is one of the bytes that were fed. -/
theorem digestSign_of_made (hmade : Made signer calls sigLen)
    (hroom : 0 + (signer.sign (fed calls.update data)).length ≤ n) :
    digestSign signer calls data sig sigLen =
      .ok (sig.overwrite 0 (signer.sign (fed calls.update data)) hroom,
        UInt64.ofNat (signer.sign (fed calls.update data)).length) := by
  rcases hmade with ⟨hinit, hfinal, hsize⟩
  rw [digestSign_eq, evpDigestSignFinal]
  simp only [hinit, hfinal, ↓reduceIte, Bool.and_self, Bool.true_and, decide_eq_true_eq,
    if_pos hsize, writeSignature, store_of_le sig hroom]
  rfl

/-- When no call fails, the signature of the data is written. -/
theorem digestSign_success (hmax : signer.maxSize < 2 ^ 64) :
    digestSign signer .success data sig sigLen = writeSignature signer.sign data sig := by
  have hroom : signer.maxSize ≤ (announcedSize signer .success sigLen).toNat :=
    (UInt64.toNat_ofNat_of_lt' hmax).ge
  rw [digestSign_eq, evpDigestSignFinal, if_pos]
  · rfl
  · exact Bool.and_eq_true_iff.mpr ⟨rfl, decide_eq_true hroom⟩

/-- Otherwise the signature is left as it was, and only the length may change. -/
theorem digestSign_of_not_made (hmade : ¬Made signer calls sigLen) :
    digestSign signer calls data sig sigLen = .ok (sig, announcedSize signer calls sigLen) := by
  rw [digestSign_eq, evpDigestSignFinal, if_neg]
  · rfl
  · rw [Bool.and_eq_true, Bool.and_eq_true, decide_eq_true_eq]
    exact fun h => hmade ⟨h.1.1, h.1.2, h.2⟩

variable (calls data sig sigLen) in
/-- Where there is room for every signature, the calls return, and the bytes that count are
the signature of what was fed, if one was made. -/
theorem digestSign_returns (hroom : signer.maxSize ≤ n) (hn : n < 2 ^ 64) :
    ∃ after, digestSign signer calls data sig sigLen = .ok after ∧
      (Made signer calls sigLen → after.2.toNat ≤ n ∧
        after.1.bytes.take after.2.toNat = signer.sign (fed calls.update data)) ∧
      (¬Made signer calls sigLen → after = (sig, announcedSize signer calls sigLen)) := by
  by_cases hmade : Made signer calls sigLen
  · have hle : (signer.sign (fed calls.update data)).length ≤ n :=
      (signer.sign_le _).trans hroom
    have hlen : (UInt64.ofNat (signer.sign (fed calls.update data)).length).toNat =
        (signer.sign (fed calls.update data)).length :=
      UInt64.toNat_ofNat_of_lt' (lt_of_le_of_lt hle hn)
    have hfits : 0 + (signer.sign (fed calls.update data)).length ≤ n := by omega
    refine ⟨_, digestSign_of_made hmade hfits, fun _ => ?_, fun h => absurd hmade h⟩
    rw [hlen]
    exact ⟨hle, Buffer.take_overwrite sig hfits⟩
  · exact ⟨_, digestSign_of_not_made hmade, fun h => absurd h hmade, fun _ => rfl⟩

end Sequence

/-! ## Signing and checking -/

/-- The signatures of the data and of the empty message are valid for nothing else. -/
def IdealFor {κ : Type*} (valid : SignatureScheme κ) (key : κ) (signer : Signer)
    (data : List UInt8) : Prop :=
  ∀ update message, valid key message (signer.sign (fed update data)) = true ↔
    message = fed update data

/-- A signature that was made under failures is accepted under failures exactly if the check
is made and both ends have fed the same bytes. -/
theorem digestVerify_signed_iff {κ : Type*} {valid : SignatureScheme κ} {key : κ}
    {signer : Signer} {data : List UInt8} (hideal : IdealFor valid key signer data)
    {calls : DigestVerifyCalls} {update : Bool} {checked : List UInt8} :
    digestVerify valid calls (some key) checked (signer.sign (fed update data)) = 1 ↔
      calls.init = true ∧ calls.final = true ∧ fed calls.update checked = fed update data := by
  rw [digestVerify_eq_one_iff]
  simp only [Option.some.injEq, exists_eq_left', hideal _ _]
  rfl

/-! ## Tables of signatures -/

/-- In a table without repeated signatures each one belongs to one message. -/
theorem mem_table_iff {pairs : List (List UInt8 × List UInt8)}
    (hnodup : (pairs.map Prod.snd).Nodup) {signed signature message : List UInt8}
    (hsigned : (signed, signature) ∈ pairs) :
    (message, signature) ∈ pairs ↔ message = signed := by
  constructor
  · intro hmessage
    exact congrArg Prod.fst (List.inj_on_of_nodup_map hnodup hmessage hsigned rfl)
  · rintro rfl
    exact hsigned

end AutomotiveSecurity.OpenSSL
