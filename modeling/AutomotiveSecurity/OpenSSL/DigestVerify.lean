import AutomotiveSecurity.Foundations.Memory

/-!
# The digest-verify calls of OpenSSL

Both verifiers check a signature with a context that is created, keyed, fed and
finished.  The signature scheme is a parameter; what this module fixes is which
bytes the context holds when the signature is checked, for every pattern of failing
calls.

Main results:

- Theorem {lit}`evpDigestVerifyFinal_eq_one_iff`: the last call returns 1 exactly if
  the context is keyed, the call succeeds and the signature is valid for the bytes held.
- Theorem {lit}`digestVerify_success_eq_one_iff`: without a failing call the sequence
  returns 1 exactly if the signature is valid for the bytes fed to it.
- Theorem {lit}`digestVerify_sound_iff`: which failures let a signature of the empty
  message pass for one of the data.

Current gaps:

- The digest algorithm is part of the scheme; nothing is assumed about its values.
- {lit}`EVP_MD_CTX_new` always succeeds; without a context the first call on it would
  dereference a null pointer.
- An update on a context whose initialisation has failed only fails; some releases of the
  library crash there.
-/

namespace AutomotiveSecurity.OpenSSL

/-- A signature scheme: whether a signature is valid for a message under a key. -/
abbrev SignatureScheme (κ : Type*) := κ → List UInt8 → List UInt8 → Bool

/-- The scheme in which exactly the given message-signature pairs have been signed. -/
def tableScheme (pairs : List (List UInt8 × List UInt8)) : SignatureScheme Unit :=
  fun _ message signature => (message, signature) ∈ pairs

theorem tableScheme_iff {pairs : List (List UInt8 × List UInt8)} {key : Unit}
    {message signature : List UInt8} :
    tableScheme pairs key message signature = true ↔ (message, signature) ∈ pairs :=
  decide_eq_true_iff

/-- Whether each call of one signature check succeeds. -/
structure DigestVerifyCalls where
  init : Bool
  update : Bool
  final : Bool
deriving DecidableEq, Repr

/-- The pattern in which no call fails. -/
def DigestVerifyCalls.success : DigestVerifyCalls where
  init := true
  update := true
  final := true

/-- An {lit}`EVP_MD_CTX` used for verification: its key, once initialised, and the bytes
fed since. -/
structure DigestVerifyCtx (κ : Type*) where
  key : Option κ
  held : List UInt8
deriving DecidableEq, Repr

section Calls

variable {κ : Type*}

/-- {lit}`EVP_MD_CTX_new()`. -/
def evpMdCtxNew : DigestVerifyCtx κ where
  key := none
  held := []

/-- {lit}`EVP_DigestVerifyInit(ctx, NULL, EVP_sha256(), NULL, pkey)`.  It fails without a
key, and a failed call leaves the context as it was. -/
def evpDigestVerifyInit (succeeds : Bool) (ctx : DigestVerifyCtx κ) (pkey : Option κ) :
    DigestVerifyCtx κ :=
  match pkey with
  | none => ctx
  | some key => if succeeds then { key := some key, held := [] } else ctx

/-- {lit}`EVP_DigestVerifyUpdate(ctx, data, count)`. -/
def evpDigestVerifyUpdate (succeeds : Bool) (ctx : DigestVerifyCtx κ)
    (data : List UInt8) : DigestVerifyCtx κ :=
  match ctx.key with
  | none => ctx
  | some _ => if succeeds then { ctx with held := ctx.held ++ data } else ctx

/-- {lit}`EVP_DigestVerifyFinal(ctx, sig, siglen)`: 1 for a valid signature, 0 for a wrong
one, and a negative value when no check was made. -/
def evpDigestVerifyFinal (valid : SignatureScheme κ) (succeeds : Bool)
    (ctx : DigestVerifyCtx κ) (signature : List UInt8) : Int :=
  match ctx.key with
  | none => -1
  | some key =>
      if succeeds then
        if valid key ctx.held signature then 1 else 0
      else -1

variable {valid : SignatureScheme κ}

/-- The last call vouches for the bytes the context holds, and for nothing else. -/
theorem evpDigestVerifyFinal_eq_one_iff {succeeds : Bool} {ctx : DigestVerifyCtx κ}
    {signature : List UInt8} :
    evpDigestVerifyFinal valid succeeds ctx signature = 1 ↔
      succeeds = true ∧ ∃ key, ctx.key = some key ∧ valid key ctx.held signature = true := by
  unfold evpDigestVerifyFinal
  cases hkey : ctx.key with
  | none => simp
  | some key =>
      cases succeeds with
      | false => simp
      | true => by_cases hvalid : valid key ctx.held signature <;> simp [hvalid]

/-! ## The sequence of calls -/

variable {calls : DigestVerifyCalls} {pkey : Option κ} {data signature : List UInt8}

variable (valid calls pkey data signature) in
/-- What the last call returns when the data is fed in one piece. -/
def digestVerify : Int :=
  evpDigestVerifyFinal valid calls.final
    (evpDigestVerifyUpdate calls.update (evpDigestVerifyInit calls.init evpMdCtxNew pkey) data)
    signature

/-- A failing {lit}`EVP_DigestVerifyUpdate` goes unnoticed: the signature is then checked
for the empty string. -/
theorem digestVerify_eq_one_iff :
    digestVerify valid calls pkey data signature = 1 ↔
      calls.init = true ∧ calls.final = true ∧
        ∃ key, pkey = some key ∧
          valid key (if calls.update then data else []) signature = true := by
  rw [digestVerify, evpDigestVerifyFinal_eq_one_iff]
  cases pkey with
  | none => simp [evpDigestVerifyInit, evpDigestVerifyUpdate, evpMdCtxNew]
  | some key =>
      rcases calls with ⟨init, update, final⟩
      cases init with
      | false => simp [evpDigestVerifyInit, evpDigestVerifyUpdate, evpMdCtxNew]
      | true => cases update <;> simp [evpDigestVerifyInit, evpDigestVerifyUpdate]

/-- Without a failing call the sequence checks the signature of exactly the given bytes. -/
theorem digestVerify_success_eq_one_iff :
    digestVerify valid .success pkey data signature = 1 ↔
      ∃ key, pkey = some key ∧ valid key data signature = true :=
  digestVerify_eq_one_iff.trans (by simp [DigestVerifyCalls.success])

theorem digestVerify_success_some_iff {key : κ} :
    digestVerify valid .success (some key) data signature = 1 ↔
      valid key data signature = true :=
  digestVerify_success_eq_one_iff.trans (by simp)

variable (valid calls pkey data signature) in
/-- The data was never fed between two successful calls, and the signature is one of the
empty message and not of the data. -/
def OnlyEmptyChecked : Prop :=
  calls.init = true ∧ calls.update = false ∧ calls.final = true ∧
    ∃ key, pkey = some key ∧ valid key [] signature = true ∧ valid key data signature = false

/-- This is the only way to get 1 without a valid signature of the data. -/
theorem digestVerify_sound_iff :
    (digestVerify valid calls pkey data signature = 1 →
        ∃ key, pkey = some key ∧ valid key data signature = true) ↔
      ¬OnlyEmptyChecked valid calls pkey data signature := by
  rw [digestVerify_eq_one_iff]
  constructor
  · rintro hsound ⟨hinit, hupdate, hfinal, key, rfl, hempty, hdata⟩
    rcases hsound ⟨hinit, hfinal, key, rfl, by rw [hupdate]; exact hempty⟩ with
      ⟨key', hkey', hvalid⟩
    cases hkey'
    rw [hdata] at hvalid
    exact Bool.false_ne_true hvalid
  · rintro hfed ⟨hinit, hfinal, key, rfl, hheld⟩
    refine ⟨key, rfl, ?_⟩
    cases hupdate : calls.update with
    | true => rwa [hupdate] at hheld
    | false =>
        rw [hupdate] at hheld
        by_contra hdata
        exact hfed ⟨hinit, hupdate, hfinal, key, rfl, hheld, Bool.eq_false_iff.mpr hdata⟩

end Calls

end AutomotiveSecurity.OpenSSL
