import AutomotiveSecurity.Foundations.CString
import AutomotiveSecurity.Foundations.HostLength

/-!
# The demonstration of {lit}`key_derivation.c`

{lit}`derive_key_pbkdf2` hands all its lengths over as {lit}`int`.  {lit}`main` checks only the
first of its four derivations; the other three keys are compared or shown whatever their arrays
hold.

Main results:

- Theorem {lit}`deriveKeyPbkdf2_eq`: with lengths that an {lit}`int` holds, a success writes the
  key and a failure writes nothing.
- Theorem {lit}`keyDerivationMain_outcome`: what {lit}`main` reports for every pattern of failing
  calls.

Current gaps:

- PBKDF2 is a parameter.  A length that arrives negative makes the call fail, except for the
  password length -1, which stands for the length of the string.
-/

namespace AutomotiveSecurity.KeyDerivation

open HostLength Memory

/-- PBKDF2-HMAC-SHA256: a password, a salt and a number of iterations determine a key of any
length. -/
abbrev Pbkdf2 := List UInt8 → List UInt8 → Int32 → (n : Nat) → Buffer n

/-! ## The function -/

/-- The bytes of a password that {lit}`PKCS5_PBKDF2_HMAC` reads. -/
def passwordCount (password : CString) (passlen : Int32) : Nat :=
  if passlen = -1 then password.chars.length else passlen.toNatClampNeg

/-- {lit}`derive_key_pbkdf2`: the return value and {lit}`key` afterwards. -/
def deriveKeyPbkdf2 {n : Nat} (pbkdf2 : Pbkdf2) (succeeds : Bool) (password : CString)
    (salt : List UInt8) (saltLen : UInt64) (iterations : Int32) (key : Buffer n)
    (keyLen : UInt64) : Except Fault (Int32 × Buffer n) := do
  let passlen := sizeToInt (UInt64.ofNat password.chars.length)
  if passlen < -1 ∨ sizeToInt saltLen < 0 ∨ iterations < 1 ∨ sizeToInt keyLen < 0 then
    return (0, key)
  let pass ← load (password.chars ++ [0]) (passwordCount password passlen)
  let salt ← load salt (sizeToInt saltLen).toNatClampNeg
  if succeeds then
    let derived := pbkdf2 pass salt iterations (sizeToInt keyLen).toNatClampNeg
    let key ← key.store 0 derived.bytes
    return (1, key)
  else
    return (0, key)

/-- A successful call writes the key, a failing one nothing. -/
theorem deriveKeyPbkdf2_eq {n : Nat} (pbkdf2 : Pbkdf2) (succeeds : Bool) {password : CString}
    {salt : List UInt8} {saltLen keyLen : UInt64} {iterations : Int32} (key : Buffer n)
    (hpassword : password.chars.length < 2 ^ 31) (hsalt : saltLen.toNat ≤ salt.length)
    (hsaltMax : saltLen.toNat < 2 ^ 31) (hiterations : ¬iterations < 1)
    (hkeyMax : keyLen.toNat < 2 ^ 31) (hkey : keyLen.toNat = n) :
    deriveKeyPbkdf2 pbkdf2 succeeds password salt saltLen iterations key keyLen =
      .ok (if succeeds then (1, pbkdf2 password.chars (salt.take saltLen.toNat) iterations n)
        else (0, key)) := by
  subst hkey
  have hlen : (UInt64.ofNat password.chars.length).toNat = password.chars.length :=
    UInt64.toNat_ofNat_of_lt' (hpassword.trans (by decide))
  have hmax : (UInt64.ofNat password.chars.length).toNat < 2 ^ 31 := by omega
  have hnonneg := sizeToInt_nonneg_of_max hmax
  have haccepted : ¬(sizeToInt (UInt64.ofNat password.chars.length) < -1 ∨
      sizeToInt saltLen < 0 ∨ iterations < 1 ∨ sizeToInt keyLen < 0) := by
    rintro (hpass | hneg | hfew | hneg)
    · exact hnonneg (Int32.lt_trans hpass (by decide))
    · exact sizeToInt_nonneg_of_max hsaltMax hneg
    · exact hiterations hfew
    · exact sizeToInt_nonneg_of_max hkeyMax hneg
  have hcount : passwordCount password (sizeToInt (UInt64.ofNat password.chars.length)) =
      password.chars.length := by
    rw [passwordCount, if_neg, toNatClampNeg_sizeToInt_of_max hmax, hlen]
    intro hall
    exact hnonneg (by rw [hall]; decide)
  have hpass : load (password.chars ++ [0]) password.chars.length = .ok password.chars := by
    rw [load_of_le (by simp), List.take_left]
  -- The size of the key is part of its type, so the length is exchanged under its bytes.
  have hbytes : (pbkdf2 password.chars (salt.take saltLen.toNat) iterations
      (sizeToInt keyLen).toNatClampNeg).bytes =
        (pbkdf2 password.chars (salt.take saltLen.toNat) iterations keyLen.toNat).bytes := by
    rw [toNatClampNeg_sizeToInt_of_max hkeyMax]
  simp only [deriveKeyPbkdf2, if_neg haccepted, hcount, hpass,
    toNatClampNeg_sizeToInt_of_max hsaltMax, load_of_le hsalt, hbytes, bind, Except.bind, pure,
    Except.pure]
  cases succeeds with
  | false => rfl
  | true =>
      obtain ⟨derived, hderived⟩ : ∃ derived, derived =
          pbkdf2 password.chars (salt.take saltLen.toNat) iterations keyLen.toNat := ⟨_, rfl⟩
      have hfits : 0 + derived.bytes.length ≤ keyLen.toNat := by
        rw [derived.size_eq, Nat.zero_add]
      have hwhole : key.overwrite 0 derived.bytes hfits = derived := by
        apply Buffer.ext
        simp [Buffer.overwrite]
      simp only [← hderived, store_of_le key hfits, hwhole, if_true]

/-! ## The program -/

/-- Whether each of the four derivations of {lit}`main` succeeds. -/
structure MainCalls where
  first : Bool
  repeated : Bool
  otherSalt : Bool
  otherPassword : Bool
deriving DecidableEq, Repr

/-- What {lit}`main` prints: its four keys, and which of its two findings it reports. -/
structure MainReport where
  keys : List (Buffer 32)
  same : Bool
  different : Bool
deriving DecidableEq, Repr

/-- {lit}`main` of {lit}`key_derivation.c` from the first salt on, for any passwords in place
of its own: the exit code, and what is printed after a first key. -/
def keyDerivationMain (pbkdf2 : Pbkdf2) (calls : MainCalls) (password password2 : CString)
    (salt salt2 : Buffer 16) (derivedKey key2 key3 key4 : Buffer 32) :
    Except Fault (Int32 × Option MainReport) := do
  let (result, derivedKey) ← deriveKeyPbkdf2 pbkdf2 calls.first password salt.bytes 16 100000
    derivedKey 32
  if result ≠ 1 then
    return (1, none)
  let (_, key2) ← deriveKeyPbkdf2 pbkdf2 calls.repeated password salt.bytes 16 100000 key2 32
  let repeated ← memcmp derivedKey.bytes key2.bytes 32
  let (_, key3) ← deriveKeyPbkdf2 pbkdf2 calls.otherSalt password salt2.bytes 16 100000 key3 32
  let otherSalt ← memcmp derivedKey.bytes key3.bytes 32
  let (_, key4) ←
    deriveKeyPbkdf2 pbkdf2 calls.otherPassword password2 salt.bytes 16 100000 key4 32
  return (0, some
    { keys := [derivedKey, key2, key3, key4]
      same := repeated = 0
      different := otherSalt ≠ 0 })

/-- The key that {lit}`main` derives from a password and a salt. -/
def keyOf (pbkdf2 : Pbkdf2) (password : CString) (salt : Buffer 16) : Buffer 32 :=
  pbkdf2 password.chars salt.bytes 100000 32

/-- What an array holds after a derivation. -/
def keyAfter (pbkdf2 : Pbkdf2) (succeeds : Bool) (password : CString) (salt : Buffer 16)
    (key : Buffer 32) : Buffer 32 :=
  if succeeds then keyOf pbkdf2 password salt else key

theorem derive_eq (pbkdf2 : Pbkdf2) (succeeds : Bool) {password : CString} (salt : Buffer 16)
    (key : Buffer 32) (hpassword : password.chars.length < 2 ^ 31) :
    deriveKeyPbkdf2 pbkdf2 succeeds password salt.bytes 16 100000 key 32 =
      .ok (if succeeds then 1 else 0, keyAfter pbkdf2 succeeds password salt key) := by
  have hwhole : salt.bytes.take (16 : UInt64).toNat = salt.bytes :=
    List.take_of_length_le salt.size_eq.le
  have hsalt : (16 : UInt64).toNat ≤ salt.bytes.length := salt.size_eq.ge
  rw [deriveKeyPbkdf2_eq pbkdf2 succeeds key hpassword hsalt (by decide) (by decide) (by decide)
    rfl, hwhole]
  cases succeeds with
  | false => rfl
  | true => rfl

theorem compareKeys (a b : Buffer 32) :
    ∃ r, memcmp a.bytes b.bytes 32 = .ok r ∧ (r = 0 ↔ a = b) := by
  rcases memcmp_eq_zero_iff a.bytes b.bytes 32 a.size_eq.ge b.size_eq.ge with ⟨r, hrun, hzero⟩
  rw [List.take_of_length_le a.size_eq.le, List.take_of_length_le b.size_eq.le,
    ← Buffer.ext_iff] at hzero
  exact ⟨r, hrun, hzero⟩

/-- For all passwords and salts, every pattern of failing calls and every content of the stack:
{lit}`main` ends with exit code 1 exactly if the first derivation fails.  Otherwise it reports
the same key exactly if the repeated derivation succeeds or has failed on an array with that
very key, and another key for the other salt exactly if that array does not hold the first
key. -/
theorem keyDerivationMain_outcome (pbkdf2 : Pbkdf2) (calls : MainCalls)
    {password password2 : CString} (salt salt2 : Buffer 16)
    (derivedKey key2 key3 key4 : Buffer 32) (hpassword : password.chars.length < 2 ^ 31)
    (hpassword2 : password2.chars.length < 2 ^ 31) :
    (calls.first = false →
      keyDerivationMain pbkdf2 calls password password2 salt salt2 derivedKey key2 key3 key4 =
        .ok (1, none)) ∧
    (calls.first = true → ∃ report,
      keyDerivationMain pbkdf2 calls password password2 salt salt2 derivedKey key2 key3 key4 =
        .ok (0, some report) ∧
      report.keys =
        [keyOf pbkdf2 password salt, keyAfter pbkdf2 calls.repeated password salt key2,
          keyAfter pbkdf2 calls.otherSalt password salt2 key3,
          keyAfter pbkdf2 calls.otherPassword password2 salt key4] ∧
      (report.same = true ↔ calls.repeated = true ∨ keyOf pbkdf2 password salt = key2) ∧
      (report.different = true ↔
        keyOf pbkdf2 password salt ≠ keyAfter pbkdf2 calls.otherSalt password salt2 key3)) := by
  constructor
  · intro hfirst
    simp only [keyDerivationMain, derive_eq pbkdf2 _ _ _ hpassword, hfirst, bind, Except.bind]
    rfl
  · intro hfirst
    rcases compareKeys (keyOf pbkdf2 password salt)
      (keyAfter pbkdf2 calls.repeated password salt key2) with ⟨r, hr, hsame⟩
    rcases compareKeys (keyOf pbkdf2 password salt)
      (keyAfter pbkdf2 calls.otherSalt password salt2 key3) with ⟨r', hr', hother⟩
    have hderived : keyAfter pbkdf2 true password salt derivedKey = keyOf pbkdf2 password salt :=
      rfl
    refine ⟨⟨_, decide (r = 0), decide (r' ≠ 0)⟩, ?_, rfl, ?_, ?_⟩
    · simp only [keyDerivationMain, derive_eq pbkdf2 _ _ _ hpassword,
        derive_eq pbkdf2 _ _ _ hpassword2, hfirst, hderived, hr, hr', bind, Except.bind]
      rfl
    · rw [decide_eq_true_iff, hsame]
      cases calls.repeated with
      | false => simp [keyAfter]
      | true => simp [keyAfter]
    · rw [decide_eq_true_iff, ne_eq, hother]

end AutomotiveSecurity.KeyDerivation
