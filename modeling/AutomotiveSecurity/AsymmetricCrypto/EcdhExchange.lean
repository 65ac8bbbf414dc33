import AutomotiveSecurity.Foundations.Memory

/-!
# The key exchange of {lit}`ecdh_exchange.c`

{lit}`main` lets Alice and Bob each derive a secret from their own private key and the public
key of the other, and compares as many bytes as {lit}`secret_len` says.  No call is checked.
One length serves both derivations: Alice's first call sets it, and each derivation that
succeeds sets it again.

Main results:

- Theorem {lit}`DhGroup.agree_comm`: both parties of an exchange derive the same.
- Theorem {lit}`ecdh_main_outcome`: what {lit}`main` does for every pattern of failing calls.

Current gaps:

- Both key pairs are given; their generation is not modelled.
-/

namespace AutomotiveSecurity.AsymmetricCrypto

open Memory

/-! ## Diffie-Hellman agreement -/

/-- A group for a key exchange: multiples of a base point are public, and a point gives a
secret unless it is degenerate. -/
structure DhGroup (S P κ : Type*) where
  base : P
  extract : P → Option κ

namespace DhGroup

variable {S P κ : Type*} [CommMonoid S] [MulAction S P] (group : DhGroup S P κ)

/-- The public key of a private one. -/
def publicKey (a : S) : P :=
  a • group.base

/-- What the owner of a private key derives from a public key. -/
def agree (a : S) (peer : P) : Option κ :=
  group.extract (a • peer)

/-- Both parties derive the same. -/
theorem agree_comm (a b : S) :
    group.agree a (group.publicKey b) = group.agree b (group.publicKey a) := by
  rw [agree, agree, publicKey, publicKey, smul_comm]

end DhGroup

/-! ## The program -/

/-- Whether the calls of one derivation succeed; without a context none of them does. -/
structure DeriveCalls where
  init : Bool
  setPeer : Bool
  derive : Bool
deriving DecidableEq, Repr

/-- Whether the calls of {lit}`main` succeed; {lit}`size` is Alice's call without a buffer. -/
structure EcdhCalls where
  alice : DeriveCalls
  size : Bool
  bob : DeriveCalls
deriving DecidableEq, Repr

/-- The context has a key, and the key of the other party. -/
def DeriveCalls.ready (calls : DeriveCalls) : Bool :=
  calls.init && calls.setPeer

/-- {lit}`EVP_PKEY_derive(ctx, NULL, &secret_len)`. -/
def evpPkeyDeriveSize (succeeds : Bool) (secretLen : UInt64) : UInt64 :=
  if succeeds then 32 else secretLen

/-- How much of a secret fits where the caller says to have {lit}`secret_len` bytes of room. -/
def derivedLen (secretLen : UInt64) : Nat :=
  min secretLen.toNat 32

/-- {lit}`EVP_PKEY_derive(ctx, secret, &secret_len)`: {lit}`secret_len` is the room that the
caller says to have.  A secret that needs more is cut off, and only without any room the call
fails. -/
def evpPkeyDerive (succeeds : Bool) (agreed : Option (Buffer 32)) (secret : Buffer 64)
    (secretLen : UInt64) : Except Fault (Buffer 64 × UInt64) :=
  match if succeeds && 0 < secretLen.toNat then agreed else none with
  | some derived => do
      let secret ← secret.store 0 (derived.bytes.take (derivedLen secretLen))
      return (secret, UInt64.ofNat (derivedLen secretLen))
  | none => return (secret, secretLen)

/-- {lit}`print_hex`, which shows 32 bytes at most. -/
def shownSecret (secret : Buffer 64) (secretLen : UInt64) : Except Fault (List UInt8) :=
  load secret.bytes (min secretLen.toNat 32)

/-- What {lit}`main` prints: the two secrets, and whether it reports that they agree. -/
@[ext]
structure EcdhReport where
  alice : List UInt8
  bob : List UInt8
  same : Bool
deriving DecidableEq, Repr

/-- The rest of {lit}`main` after the derivations. -/
def compareSecrets (aliceSecret bobSecret : Buffer 64) (secretLen : UInt64) :
    Except Fault EcdhReport := do
  let alice ← shownSecret aliceSecret secretLen
  let bob ← shownSecret bobSecret secretLen
  let difference ← memcmp aliceSecret.bytes bobSecret.bytes secretLen.toNat
  return { alice := alice, bob := bob, same := difference = 0 }

section Program

variable {P : Type} [AddCommMonoid P] (curve : DhGroup ℕ P (Buffer 32)) (calls : EcdhCalls)
  (aliceKey bobKey : ℕ)

/-- {lit}`secret_len` after Alice's call without a buffer. -/
def requestedLen (secretLen : UInt64) : UInt64 :=
  evpPkeyDeriveSize (calls.alice.ready && calls.size) secretLen

/-- {lit}`main` of {lit}`ecdh_exchange.c` from the two key pairs on. -/
def ecdhMain (aliceSecret bobSecret : Buffer 64) (secretLen : UInt64) :
    Except Fault EcdhReport := do
  let secretLen := requestedLen calls secretLen
  let (aliceSecret, secretLen) ← evpPkeyDerive (calls.alice.ready && calls.alice.derive)
    (curve.agree aliceKey (curve.publicKey bobKey)) aliceSecret secretLen
  let (bobSecret, secretLen) ← evpPkeyDerive (calls.bob.ready && calls.bob.derive)
    (curve.agree bobKey (curve.publicKey aliceKey)) bobSecret secretLen
  compareSecrets aliceSecret bobSecret secretLen

end Program

/-! ## Single calls -/

section Calls

variable {party : DeriveCalls} {agreed : Option (Buffer 32)} (secret : Buffer 64)
  {secretLen : UInt64}

/-- The derivation of a party yields the given secret, or what there is room for. -/
def Derives (party : DeriveCalls) (agreed : Option (Buffer 32)) (secretLen : UInt64)
    (derived : Buffer 32) : Prop :=
  (party.ready && party.derive) = true ∧ 0 < secretLen.toNat ∧ agreed = some derived

theorem derivedLen_toNat :
    (UInt64.ofNat (derivedLen secretLen)).toNat = derivedLen secretLen :=
  UInt64.toNat_ofNat_of_lt' (lt_of_le_of_lt (min_le_right _ 32) (by decide))

/-- The length of a derived secret leaves room for as much of the next one. -/
theorem derivedLen_idem :
    derivedLen (UInt64.ofNat (derivedLen secretLen)) = derivedLen secretLen := by
  rw [derivedLen, derivedLen_toNat]
  exact min_eq_left (min_le_right _ _)

/-- What there is room for of a derived secret stands at the front of its array. -/
theorem evpPkeyDerive_of_derives {derived : Buffer 32}
    (hderives : Derives party agreed secretLen derived) :
    ∃ after : Buffer 64,
      evpPkeyDerive (party.ready && party.derive) agreed secret secretLen =
          .ok (after, UInt64.ofNat (derivedLen secretLen)) ∧
        after.bytes.take (derivedLen secretLen) =
          derived.bytes.take (derivedLen secretLen) := by
  rcases hderives with ⟨hcalls, hroom, rfl⟩
  have hlength : (derived.bytes.take (derivedLen secretLen)).length = derivedLen secretLen :=
    derived.length_take (min_le_right _ _)
  have hfits : 0 + (derived.bytes.take (derivedLen secretLen)).length ≤ 64 := by
    rw [hlength, derivedLen]
    omega
  refine ⟨secret.overwrite 0 (derived.bytes.take (derivedLen secretLen)) hfits, ?_, ?_⟩
  · simp only [evpPkeyDerive, hcalls, hroom, decide_true, Bool.and_self, if_true,
      store_of_le secret hfits, bind, Except.bind]
    rfl
  · have hread := secret.take_overwrite hfits
    rwa [hlength] at hread

/-- Otherwise neither the array nor the length is touched. -/
theorem evpPkeyDerive_of_not (hnone : ∀ derived, ¬Derives party agreed secretLen derived) :
    evpPkeyDerive (party.ready && party.derive) agreed secret secretLen =
      .ok (secret, secretLen) := by
  by_cases hcalls : ((party.ready && party.derive) && decide (0 < secretLen.toNat)) = true
  · rcases Bool.and_eq_true_iff.mp hcalls with ⟨hready, hroom⟩
    cases agreed with
    | none => simp only [evpPkeyDerive, hcalls, if_true]; rfl
    | some derived => exact absurd ⟨hready, of_decide_eq_true hroom, rfl⟩ (hnone derived)
  · simp only [evpPkeyDerive, if_neg hcalls]
    rfl

/-- What is shown stays inside the array. -/
theorem shownSecret_eq (array : Buffer 64) :
    shownSecret array secretLen = .ok (array.bytes.take (derivedLen secretLen)) := by
  refine load_of_le ?_
  rw [array.size_eq]
  omega

/-- Within the arrays the comparison tells whether their fronts are equal. -/
theorem compareSecrets_of_le {aliceSecret bobSecret : Buffer 64} (hlen : secretLen.toNat ≤ 64) :
    ∃ report, compareSecrets aliceSecret bobSecret secretLen = .ok report ∧
      report.alice = aliceSecret.bytes.take (derivedLen secretLen) ∧
      report.bob = bobSecret.bytes.take (derivedLen secretLen) ∧
      (report.same = true ↔
        aliceSecret.bytes.take secretLen.toNat = bobSecret.bytes.take secretLen.toNat) := by
  rcases memcmp_eq_zero_iff aliceSecret.bytes bobSecret.bytes secretLen.toNat
    (by rwa [aliceSecret.size_eq]) (by rwa [bobSecret.size_eq]) with ⟨difference, hcompare, hzero⟩
  simp only [compareSecrets, shownSecret_eq, hcompare, bind, Except.bind, pure, Except.pure]
  exact ⟨_, rfl, rfl, rfl, decide_eq_true_iff.trans hzero⟩

/-- The comparison over the length that a derivation has left. -/
theorem compareSecrets_derived (aliceSecret bobSecret : Buffer 64) (secretLen : UInt64) :
    ∃ report,
      compareSecrets aliceSecret bobSecret (UInt64.ofNat (derivedLen secretLen)) = .ok report ∧
      report.alice = aliceSecret.bytes.take (derivedLen secretLen) ∧
      report.bob = bobSecret.bytes.take (derivedLen secretLen) ∧
      (report.same = true ↔ aliceSecret.bytes.take (derivedLen secretLen) =
        bobSecret.bytes.take (derivedLen secretLen)) := by
  have hlen : (UInt64.ofNat (derivedLen secretLen)).toNat ≤ 64 := by
    rw [derivedLen_toNat, derivedLen]
    omega
  have hcompared := @compareSecrets_of_le _ aliceSecret bobSecret hlen
  rwa [derivedLen_idem, derivedLen_toNat] at hcompared

/-- Beyond the arrays it reads behind Alice's. -/
theorem compareSecrets_of_lt {aliceSecret bobSecret : Buffer 64} (hlen : 64 < secretLen.toNat) :
    compareSecrets aliceSecret bobSecret secretLen = .error (.read 64) := by
  have hread : load aliceSecret.bytes secretLen.toNat = .error (.read 64) := by
    rw [load, if_neg (by rw [aliceSecret.size_eq]; omega), aliceSecret.size_eq]
  simp only [compareSecrets, shownSecret_eq, memcmp, hread, bind, Except.bind]

end Calls

/-! ## The outcome -/

section Outcome

variable {P : Type} [AddCommMonoid P] {curve : DhGroup ℕ P (Buffer 32)} {calls : EcdhCalls}
  {aliceKey bobKey : ℕ} (aliceSecret bobSecret : Buffer 64) {secretLen : UInt64}

/-- How much {lit}`main` derives of a secret. -/
def sharedLen (calls : EcdhCalls) (secretLen : UInt64) : Nat :=
  derivedLen (requestedLen calls secretLen)

/-- If Alice's call without a buffer succeeds, the whole secret. -/
theorem sharedLen_of_size (hsize : (calls.alice.ready && calls.size) = true) :
    sharedLen calls secretLen = 32 := by
  rw [sharedLen, requestedLen, evpPkeyDeriveSize, if_pos hsize]
  rfl

/-- Alice's derivation yields the given secret, or what there is room for. -/
def AliceDerives (curve : DhGroup ℕ P (Buffer 32)) (calls : EcdhCalls) (aliceKey bobKey : ℕ)
    (secretLen : UInt64) (derived : Buffer 32) : Prop :=
  Derives calls.alice (curve.agree aliceKey (curve.publicKey bobKey))
    (requestedLen calls secretLen) derived

/-- Bob's derivation yields the given secret, or what there is room for.  It is given some room
exactly if Alice's one has been. -/
def BobDerives (curve : DhGroup ℕ P (Buffer 32)) (calls : EcdhCalls) (aliceKey bobKey : ℕ)
    (secretLen : UInt64) (derived : Buffer 32) : Prop :=
  Derives calls.bob (curve.agree bobKey (curve.publicKey aliceKey))
    (requestedLen calls secretLen) derived

/-- Once Alice has derived a secret, Bob is given the length of what she has. -/
theorem derives_of_derives {party party' : DeriveCalls} {agreed agreed' : Option (Buffer 32)}
    {derived : Buffer 32} (hderives : Derives party agreed secretLen derived)
    (derived' : Buffer 32) :
    Derives party' agreed' (UInt64.ofNat (derivedLen secretLen)) derived' ↔
      Derives party' agreed' secretLen derived' := by
  have hroom : 0 < (UInt64.ofNat (derivedLen secretLen)).toNat := by
    rw [derivedLen_toNat]
    exact lt_min hderives.2.1 (by decide)
  rw [Derives, Derives, and_iff_right hroom, and_iff_right hderives.2.1]

/-- Both secrets are the same, and {lit}`main` says so. -/
theorem ecdhMain_of_both {a b : Buffer 32}
    (halice : AliceDerives curve calls aliceKey bobKey secretLen a)
    (hbob : BobDerives curve calls aliceKey bobKey secretLen b) :
    a = b ∧ ecdhMain curve calls aliceKey bobKey aliceSecret bobSecret secretLen =
      .ok { alice := a.bytes.take (sharedLen calls secretLen)
            bob := a.bytes.take (sharedLen calls secretLen)
            same := true } := by
  have hsame : a = b := by
    have hagree := halice.2.2
    rw [curve.agree_comm, hbob.2.2] at hagree
    exact (Option.some.inj hagree).symm
  subst hsame
  rcases evpPkeyDerive_of_derives aliceSecret halice with ⟨alice, hfirst, hafter⟩
  rcases evpPkeyDerive_of_derives bobSecret ((derives_of_derives halice a).mpr hbob) with
    ⟨bob, hsecond, hafter'⟩
  rw [derivedLen_idem] at hsecond hafter'
  rcases compareSecrets_derived alice bob (requestedLen calls secretLen) with
    ⟨report, hrun, hshown, hshown', hverdict⟩
  have hreport : report =
      { alice := a.bytes.take (sharedLen calls secretLen)
        bob := a.bytes.take (sharedLen calls secretLen)
        same := true } :=
    EcdhReport.ext (hshown.trans hafter) (hshown'.trans hafter')
      (hverdict.mpr (hafter.trans hafter'.symm))
  refine ⟨rfl, ?_⟩
  simp only [ecdhMain, hfirst, hsecond, bind, Except.bind, hrun, hreport]

/-- Alice's secret is compared with what Bob's array has held before. -/
theorem ecdhMain_of_alice {a : Buffer 32}
    (halice : AliceDerives curve calls aliceKey bobKey secretLen a)
    (hbob : ∀ b, ¬BobDerives curve calls aliceKey bobKey secretLen b) :
    ∃ report, ecdhMain curve calls aliceKey bobKey aliceSecret bobSecret secretLen =
        .ok report ∧ report.alice = a.bytes.take (sharedLen calls secretLen) ∧
      report.bob = bobSecret.bytes.take (sharedLen calls secretLen) ∧
      (report.same = true ↔ a.bytes.take (sharedLen calls secretLen) =
        bobSecret.bytes.take (sharedLen calls secretLen)) := by
  rcases evpPkeyDerive_of_derives aliceSecret halice with ⟨alice, hfirst, hafter⟩
  have hsecond := evpPkeyDerive_of_not bobSecret
    fun b hderives => hbob b ((derives_of_derives halice b).mp hderives)
  rcases compareSecrets_derived alice bobSecret (requestedLen calls secretLen) with
    ⟨report, hrun, hshown, hshown', hverdict⟩
  rw [hafter] at hverdict
  refine ⟨report, ?_, hshown.trans hafter, hshown', hverdict⟩
  simp only [ecdhMain, hfirst, hsecond, bind, Except.bind, hrun]

/-- Bob's secret is compared with what Alice's array has held before. -/
theorem ecdhMain_of_bob {b : Buffer 32}
    (halice : ∀ a, ¬AliceDerives curve calls aliceKey bobKey secretLen a)
    (hbob : BobDerives curve calls aliceKey bobKey secretLen b) :
    ∃ report, ecdhMain curve calls aliceKey bobKey aliceSecret bobSecret secretLen =
        .ok report ∧ report.alice = aliceSecret.bytes.take (sharedLen calls secretLen) ∧
      report.bob = b.bytes.take (sharedLen calls secretLen) ∧
      (report.same = true ↔ aliceSecret.bytes.take (sharedLen calls secretLen) =
        b.bytes.take (sharedLen calls secretLen)) := by
  have hfirst := evpPkeyDerive_of_not aliceSecret halice
  rcases evpPkeyDerive_of_derives bobSecret hbob with ⟨bob, hsecond, hafter⟩
  rcases compareSecrets_derived aliceSecret bob (requestedLen calls secretLen) with
    ⟨report, hrun, hshown, hshown', hverdict⟩
  rw [hafter] at hverdict
  refine ⟨report, ?_, hshown, hshown'.trans hafter, hverdict⟩
  simp only [ecdhMain, hfirst, hsecond, bind, Except.bind, hrun]

/-- Without a derived secret two arrays nobody has written are compared. -/
theorem ecdhMain_of_neither
    (halice : ∀ a, ¬AliceDerives curve calls aliceKey bobKey secretLen a)
    (hbob : ∀ b, ¬BobDerives curve calls aliceKey bobKey secretLen b) :
    ecdhMain curve calls aliceKey bobKey aliceSecret bobSecret secretLen =
      compareSecrets aliceSecret bobSecret (requestedLen calls secretLen) := by
  have hfirst := evpPkeyDerive_of_not aliceSecret halice
  have hsecond := evpPkeyDerive_of_not bobSecret hbob
  simp only [ecdhMain, hfirst, hsecond, bind, Except.bind]

end Outcome

/-- For every group, all private keys, every pattern of failing calls and every content of the
stack: once Alice's call for the length succeeds, a secret is derived and compared whole; after
a failing one it is cut off where the old value of {lit}`secret_len` is smaller.  If both
derivations yield a secret it is the same one, and {lit}`main` shows as much of it twice and
reports the agreement.  If one of them does not, the other secret is compared with old stack
content.  If neither does, two arrays of old content are compared, as far as the length says,
and {lit}`main` reads behind its arrays exactly if that is more than they hold; so it also
reports an agreement where nothing has been agreed on. -/
theorem ecdh_main_outcome {P : Type} [AddCommMonoid P] (curve : DhGroup ℕ P (Buffer 32))
    (calls : EcdhCalls) (aliceKey bobKey : ℕ) (aliceSecret bobSecret : Buffer 64)
    (secretLen : UInt64) :
    ((calls.alice.ready && calls.size) = true → sharedLen calls secretLen = 32) ∧
    (∀ a b, AliceDerives curve calls aliceKey bobKey secretLen a →
      BobDerives curve calls aliceKey bobKey secretLen b →
      a = b ∧ ecdhMain curve calls aliceKey bobKey aliceSecret bobSecret secretLen =
        .ok { alice := a.bytes.take (sharedLen calls secretLen)
              bob := a.bytes.take (sharedLen calls secretLen)
              same := true }) ∧
    (∀ a, AliceDerives curve calls aliceKey bobKey secretLen a →
      (∀ b, ¬BobDerives curve calls aliceKey bobKey secretLen b) →
      ∃ report, ecdhMain curve calls aliceKey bobKey aliceSecret bobSecret secretLen =
          .ok report ∧ report.alice = a.bytes.take (sharedLen calls secretLen) ∧
        report.bob = bobSecret.bytes.take (sharedLen calls secretLen) ∧
        (report.same = true ↔ a.bytes.take (sharedLen calls secretLen) =
          bobSecret.bytes.take (sharedLen calls secretLen))) ∧
    (∀ b, (∀ a, ¬AliceDerives curve calls aliceKey bobKey secretLen a) →
      BobDerives curve calls aliceKey bobKey secretLen b →
      ∃ report, ecdhMain curve calls aliceKey bobKey aliceSecret bobSecret secretLen =
          .ok report ∧ report.alice = aliceSecret.bytes.take (sharedLen calls secretLen) ∧
        report.bob = b.bytes.take (sharedLen calls secretLen) ∧
        (report.same = true ↔ aliceSecret.bytes.take (sharedLen calls secretLen) =
          b.bytes.take (sharedLen calls secretLen))) ∧
    ((∀ a, ¬AliceDerives curve calls aliceKey bobKey secretLen a) →
      (∀ b, ¬BobDerives curve calls aliceKey bobKey secretLen b) →
      (64 < (requestedLen calls secretLen).toNat →
        ecdhMain curve calls aliceKey bobKey aliceSecret bobSecret secretLen =
          .error (.read 64)) ∧
      ((requestedLen calls secretLen).toNat ≤ 64 →
        ∃ report, ecdhMain curve calls aliceKey bobKey aliceSecret bobSecret secretLen =
            .ok report ∧ report.alice = aliceSecret.bytes.take (sharedLen calls secretLen) ∧
          report.bob = bobSecret.bytes.take (sharedLen calls secretLen) ∧
          (report.same = true ↔
            aliceSecret.bytes.take (requestedLen calls secretLen).toNat =
              bobSecret.bytes.take (requestedLen calls secretLen).toNat))) := by
  refine ⟨sharedLen_of_size, ?_, ?_, ?_, ?_⟩
  · intro a b
    exact ecdhMain_of_both aliceSecret bobSecret
  · intro a
    exact ecdhMain_of_alice aliceSecret bobSecret
  · intro b
    exact ecdhMain_of_bob aliceSecret bobSecret
  · intro halice hbob
    rw [ecdhMain_of_neither aliceSecret bobSecret halice hbob]
    exact ⟨compareSecrets_of_lt, compareSecrets_of_le⟩

/-- A group of five points, one of which is degenerate. -/
def sampleGroup : DhGroup ℕ (ZMod 5) (Buffer 32) where
  base := 1
  extract p := if p = 0 then none else some (Buffer.initialised 32 [UInt8.ofNat p.val])

/-- No context can be set up. -/
def nothingWorks : EcdhCalls where
  alice := ⟨false, false, false⟩
  size := false
  bob := ⟨false, false, false⟩

/-- With zeros on the stack an agreement is reported then. -/
theorem agreement_without_secret :
    ∃ report, ecdhMain sampleGroup nothingWorks 2 3 (Buffer.zero 64) (Buffer.zero 64) 0 =
      .ok report ∧ report.same = true := by
  rcases ((ecdh_main_outcome sampleGroup nothingWorks 2 3 (Buffer.zero 64) (Buffer.zero 64)
    0).2.2.2.2 (fun a h => absurd h.1 (by decide)) (fun b h => absurd h.1 (by decide))).2
    (by decide) with ⟨report, hrun, -, -, hverdict⟩
  exact ⟨report, hrun, hverdict.mpr rfl⟩

end AutomotiveSecurity.AsymmetricCrypto
