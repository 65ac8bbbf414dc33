import AutomotiveSecurity.Foundations.IncrementalHash
import AutomotiveSecurity.Foundations.Memory

/-!
# The digest calls of OpenSSL

A digest context is created, initialised with a hash, fed and finished.  The hash is a
parameter; each call may fail on its own.

Main results:

- Theorem {lit}`digestUpdate_of_le`: an update call feeds the addressed bytes or fails.

Current gaps:

- A call on a context that does not exist or is not initialised reports failure here,
  where the library would dereference a null pointer or raise an error.
-/

namespace AutomotiveSecurity.OpenSSL

open Memory

/-- Whether each call of one digest computation succeeds; the update calls are
numbered. -/
structure DigestCalls where
  ctxNew : Bool
  init : Bool
  update : Nat → Bool
  final : Bool

/-- The pattern in which no call fails. -/
def DigestCalls.success : DigestCalls where
  ctxNew := true
  init := true
  update _ := true
  final := true

/-- An {lit}`EVP_MD_CTX` used for a digest: the state of the hash, once initialised. -/
structure DigestCtx (σ : Type) where
  state : Option σ
deriving DecidableEq, Repr

section Calls

variable {σ : Type} {n : Nat}

/-- {lit}`EVP_MD_CTX_new()`. -/
def mdCtxNew (succeeds : Bool) : Option (DigestCtx σ) :=
  if succeeds then some { state := none } else none

/-- {lit}`EVP_DigestInit_ex(ctx, type, NULL)`. -/
def digestInit (succeeds : Bool) (hash : IncrementalHash σ (Buffer n)) (ctx : DigestCtx σ) :
    Option (DigestCtx σ) :=
  if succeeds then some { ctx with state := some hash.init } else none

/-- {lit}`EVP_DigestUpdate(ctx, d, cnt)`. -/
def digestUpdate (succeeds : Bool) (hash : IncrementalHash σ (Buffer n)) (ctx : DigestCtx σ)
    (d : List UInt8) (cnt : Nat) : Except Fault (Option (DigestCtx σ)) :=
  match ctx.state with
  | none => return none
  | some s =>
      if succeeds then do
        let data ← load d cnt
        return some { ctx with state := some (hash.update s data) }
      else return none

/-- {lit}`EVP_DigestFinal_ex(ctx, md, &s)`: the bytes written to {lit}`md`. -/
def digestFinal (succeeds : Bool) (hash : IncrementalHash σ (Buffer n)) (ctx : DigestCtx σ) :
    Option (Buffer n) :=
  match ctx.state with
  | none => none
  | some s => if succeeds then some (hash.final s) else none

theorem digestUpdate_of_le (succeeds : Bool) (hash : IncrementalHash σ (Buffer n)) (s : σ)
    {d : List UInt8} {cnt : Nat} (hle : cnt ≤ d.length) :
    digestUpdate succeeds hash { state := some s } d cnt =
      .ok (if succeeds then some { state := some (hash.update s (d.take cnt)) } else none) := by
  cases succeeds with
  | false => rfl
  | true =>
      simp only [digestUpdate, if_true, load_of_le hle]
      rfl

end Calls

end AutomotiveSecurity.OpenSSL
