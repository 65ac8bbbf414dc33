import AutomotiveSecurity.Foundations.Memory

/-!
# The CMAC calls of OpenSSL

The programs drive CMAC through a context that is created, keyed, fed and
finished.  The MAC itself is a parameter; what this module fixes is the state of
the context between the calls, for every pattern of failing calls.

Main results:

- Theorem {lit}`cmacFinal_of_calls`: what the sequence of the four calls yields under any
  pattern of failures.
- Theorem {lit}`cmacFinal_of_wrong_key`: a key of the wrong length yields no MAC.
- Theorems {lit}`withContext_of_new` and {lit}`withContext_of_null`: without a context a
  program ends at its first use.

Current gaps:

- The AES-CMAC function is a parameter; nothing is assumed about its values.
- The four calls by themselves take a missing context for one more failure.  In the library
  the first use of it dereferences a null pointer, which {lit}`withContext` adds.
- A failing {lit}`CMAC_Final` writes nothing here; in the library it clears its output if the
  context has a key.
-/

namespace AutomotiveSecurity.OpenSSL

open Memory

/-- A MAC function: the key and the message determine a 16-byte tag. -/
abbrev CmacFunction := List UInt8 → List UInt8 → Buffer 16

/-- The ciphers the programs hand to {lit}`CMAC_Init`. -/
inductive EvpCipher
  | aes128Cbc
  | aes256Cbc
deriving DecidableEq, Repr

/-- The key length of a cipher in bytes. -/
def EvpCipher.keyLength : EvpCipher → Nat
  | .aes128Cbc => 16
  | .aes256Cbc => 32

/-- Whether each call of one CMAC computation succeeds. -/
structure CmacCalls where
  ctxNew : Bool
  init : Bool
  update : Bool
  final : Bool
deriving DecidableEq, Repr

/-- The pattern in which no call fails. -/
def CmacCalls.success : CmacCalls where
  ctxNew := true
  init := true
  update := true
  final := true

/-- A {lit}`CMAC_CTX *`: absent, without a key, or keyed and holding a message. -/
inductive CmacCtx
  | null
  | unkeyed
  | keyed (key message : List UInt8)
deriving DecidableEq, Repr

/-- {lit}`CMAC_CTX_new()`. -/
def cmacCtxNew (succeeds : Bool) : CmacCtx :=
  if succeeds then .unkeyed else .null

/-- {lit}`CMAC_Init(ctx, key, key_len, cipher, NULL)`.  It fails when the key does not
have the cipher's key length. -/
def cmacInit (succeeds : Bool) (ctx : CmacCtx) (key : List UInt8) (cipher : EvpCipher) :
    CmacCtx :=
  match ctx with
  | .null => .null
  | .unkeyed | .keyed _ _ =>
      if succeeds && key.length == cipher.keyLength then .keyed key [] else .unkeyed

/-- {lit}`CMAC_Update(ctx, data, data_len)`. -/
def cmacUpdate (succeeds : Bool) (ctx : CmacCtx) (data : List UInt8) : CmacCtx :=
  match ctx with
  | .null => .null
  | .unkeyed => .unkeyed
  | .keyed key message => .keyed key (if succeeds then message ++ data else message)

/-- {lit}`CMAC_Final(ctx, out, &out_len)`: the 16 bytes it writes, if it writes any. -/
def cmacFinal (cmac : CmacFunction) (succeeds : Bool) (ctx : CmacCtx) :
    Option (Buffer 16) :=
  match ctx with
  | .null | .unkeyed => none
  | .keyed key message => if succeeds then some (cmac key message) else none

/-- {lit}`ctx->cctx`, which {lit}`CMAC_Init` reads first. -/
def CmacCtx.dereference : CmacCtx → Except Fault CmacCtx
  | .null => .error (.read 0)
  | .unkeyed => .ok .unkeyed
  | .keyed key message => .ok (.keyed key message)

/-- A MAC computation that uses the context it has asked for. -/
def withContext {α : Type} (calls : CmacCalls) (computation : Except Fault α) :
    Except Fault α := do
  let _ ← (cmacCtxNew calls.ctxNew).dereference
  computation

theorem withContext_of_new {α : Type} {calls : CmacCalls} (hnew : calls.ctxNew = true)
    (computation : Except Fault α) : withContext calls computation = computation := by
  rw [withContext, hnew]
  rfl

theorem withContext_of_null {α : Type} {calls : CmacCalls} (hnull : calls.ctxNew = false)
    (computation : Except Fault α) : withContext calls computation = .error (.read 0) := by
  rw [withContext, hnull]
  rfl

/-- Only a failing {lit}`CMAC_Update` goes unnoticed by the calls after it: they then
compute the MAC of the empty string. -/
theorem cmacFinal_of_calls (cmac : CmacFunction) (calls : CmacCalls) {key : List UInt8}
    {cipher : EvpCipher} (hkey : key.length = cipher.keyLength) (data : List UInt8) :
    cmacFinal cmac calls.final
        (cmacUpdate calls.update
          (cmacInit calls.init (cmacCtxNew calls.ctxNew) key cipher) data) =
      if calls.ctxNew && calls.init && calls.final then
        some (cmac key (if calls.update then data else []))
      else none := by
  rcases calls with ⟨ctxNew, init, update, final⟩
  cases ctxNew with
  | false => simp [cmacCtxNew, cmacInit, cmacUpdate, cmacFinal]
  | true =>
      cases init with
      | false => simp [cmacCtxNew, cmacInit, cmacUpdate, cmacFinal]
      | true => simp [cmacCtxNew, cmacInit, cmacUpdate, cmacFinal, hkey]

/-- A key of another length than the cipher's yields no MAC, whichever calls succeed. -/
theorem cmacFinal_of_wrong_key (cmac : CmacFunction) (calls : CmacCalls) {key : List UInt8}
    {cipher : EvpCipher} (hkey : key.length ≠ cipher.keyLength) (data : List UInt8) :
    cmacFinal cmac calls.final
        (cmacUpdate calls.update
          (cmacInit calls.init (cmacCtxNew calls.ctxNew) key cipher) data) = none := by
  rcases calls with ⟨ctxNew, init, update, final⟩
  cases ctxNew with
  | false => simp [cmacCtxNew, cmacInit, cmacUpdate, cmacFinal]
  | true => simp [cmacCtxNew, cmacInit, cmacUpdate, cmacFinal, hkey]

end AutomotiveSecurity.OpenSSL
