import AutomotiveSecurity.Foundations.HostLength
import AutomotiveSecurity.HashIntegrity.HexDigest

/-!
# The demonstration of {lit}`hmac_demo.c`

{lit}`calculate_hmac_sha256` hands its key length to {lit}`HMAC` as an {lit}`int`.  {lit}`main`
stores the MAC of a message and compares it with that of the same message, of a changed message
and under another key; all three comparisons read one buffer, and no call is checked.

Main results:

- Theorem {lit}`calculateHmacSha256_covers_key_iff`: for which key lengths a reported success
  is one for the whole key.
- Theorem {lit}`hmac_main_verdicts`: which of the three comparisons succeed, for every pattern of
  failing calls.

Current gaps:

- HMAC-SHA256 is a parameter.  A negative key length is taken to make {lit}`HMAC` fail.
-/

namespace AutomotiveSecurity.HmacDemo

open FileIntegrity HostLength Memory

/-- HMAC-SHA256: the key and the message determine 32 bytes. -/
abbrev HmacFunction := List UInt8 → List UInt8 → Buffer 32

/-! ## The function -/

/-- {lit}`HMAC(EVP_sha256(), key, key_len, data, data_len, mac, &mac_len)`: the bytes it
writes, if it does not return {lit}`NULL`. -/
def hmacCall (hmac : HmacFunction) (succeeds : Bool) (key : List UInt8) (keyLen : Int32)
    (data : List UInt8) (dataLen : UInt64) : Except Fault (Option (Buffer 32)) := do
  if keyLen < 0 then return none
  let key ← load key keyLen.toNatClampNeg
  let data ← load data dataLen.toNat
  return if succeeds then some (hmac key data) else none

/-- {lit}`calculate_hmac_sha256`: the return value and {lit}`mac` afterwards. -/
def calculateHmacSha256 (hmac : HmacFunction) (succeeds : Bool) (key : List UInt8)
    (keyLen : UInt64) (data : List UInt8) (dataLen : UInt64) (mac : Buffer 32) :
    Except Fault (Int32 × Buffer 32) := do
  match ← hmacCall hmac succeeds key (sizeToInt keyLen) data dataLen with
  | some written => return (0, written)
  | none => return (-1, mac)

/-- The call sees the low 32 bits of the key length, unless it takes them for a negative
number. -/
theorem calculateHmacSha256_eq (hmac : HmacFunction) (succeeds : Bool) {key data : List UInt8}
    {keyLen dataLen : UInt64} (mac : Buffer 32) (hkey : keyLen.toNat ≤ key.length)
    (hdata : dataLen.toNat ≤ data.length) :
    calculateHmacSha256 hmac succeeds key keyLen data dataLen mac =
      .ok (if low32 keyLen < 2 ^ 31 ∧ succeeds = true then
          (0, hmac (key.take (low32 keyLen)) (data.take dataLen.toNat))
        else (-1, mac)) := by
  by_cases hnonneg : sizeToInt keyLen < 0
  · have hlow : ¬low32 keyLen < 2 ^ 31 :=
      fun hlt => (sizeToInt_nonneg_iff.mpr hlt) hnonneg
    rw [if_neg fun h => hlow h.1]
    simp only [calculateHmacSha256, hmacCall, if_pos hnonneg]
    rfl
  · have hlow := sizeToInt_nonneg_iff.mp hnonneg
    have hload : load key (sizeToInt keyLen).toNatClampNeg = .ok (key.take (low32 keyLen)) := by
      rw [toNatClampNeg_sizeToInt hnonneg]
      exact load_of_le ((low32_le keyLen).trans hkey)
    simp only [calculateHmacSha256, hmacCall, if_neg hnonneg, hload, load_of_le hdata, bind,
      Except.bind]
    cases succeeds with
    | false =>
        have hnot : ¬(low32 keyLen < 2 ^ 31 ∧ false = true) := fun h => absurd h.2 (by decide)
        exact congrArg Except.ok (if_neg hnot).symm
    | true =>
        have hboth : low32 keyLen < 2 ^ 31 ∧ true = true := ⟨hlow, rfl⟩
        exact congrArg Except.ok (if_pos hboth).symm

/-- For a MAC that tells the key from the front part of it that the low 32 bits of
{lit}`key_len` leave: a success that {lit}`calculate_hmac_sha256` reports is one for the key of
{lit}`key_len` bytes exactly if {lit}`key_len` is below {lit}`2 ^ 32`, or its low 32 bits make
the call fail, or the call fails anyway. -/
theorem calculateHmacSha256_covers_key_iff (hmac : HmacFunction) (succeeds : Bool)
    (key data : List UInt8) (keyLen dataLen : UInt64) (mac : Buffer 32)
    (hkey : keyLen.toNat ≤ key.length) (hdata : dataLen.toNat ≤ data.length)
    (hcut : hmac (key.take (low32 keyLen)) (data.take dataLen.toNat) =
        hmac (key.take keyLen.toNat) (data.take dataLen.toNat) →
      key.take (low32 keyLen) = key.take keyLen.toNat) :
    (∀ written, calculateHmacSha256 hmac succeeds key keyLen data dataLen mac =
        .ok (0, written) →
      written = hmac (key.take keyLen.toNat) (data.take dataLen.toNat)) ↔
      keyLen.toNat < 2 ^ 32 ∨ 2 ^ 31 ≤ low32 keyLen ∨ succeeds = false := by
  rw [calculateHmacSha256_eq hmac succeeds mac hkey hdata]
  constructor
  · intro hcovers
    by_contra hlong
    simp only [not_or, Nat.not_lt, Nat.not_le, Bool.not_eq_false] at hlong
    rcases hlong with ⟨hlen, hlow, hsucceeds⟩
    rw [if_pos ⟨hlow, hsucceeds⟩] at hcovers
    have hsame := congrArg List.length (hcut (hcovers _ rfl))
    rw [List.length_take, List.length_take] at hsame
    omega
  · intro hcase written hreturn
    by_cases hdone : low32 keyLen < 2 ^ 31 ∧ succeeds = true
    · rw [if_pos hdone] at hreturn
      have hshort : keyLen.toNat < 2 ^ 32 := by
        rcases hcase with hshort | hlow | hfails
        · exact hshort
        · omega
        · rw [hfails] at hdone
          exact absurd hdone.2 (by decide)
      rw [low32_of_lt hshort] at hreturn
      exact (congrArg Prod.snd (Except.ok.inj hreturn)).symm
    · rw [if_neg hdone] at hreturn
      exact absurd hreturn error_ne_zero

/-- A MAC that tells one key from all others. -/
def singlingOut (key : List UInt8) : HmacFunction := fun other _ =>
  if other = key then Buffer.initialised 32 [1] else Buffer.zero 32

theorem singlingOut_inj {key other message : List UInt8}
    (h : singlingOut key other message = singlingOut key key message) : other = key := by
  by_contra hother
  simp only [singlingOut, if_neg hother, if_true] at h
  exact absurd h (by decide)

/-- Of a key of {lit}`2 ^ 32 + 16` bytes only the first 16 are used. -/
theorem long_key_cut :
    ¬∀ written, calculateHmacSha256 (singlingOut (List.replicate (2 ^ 32 + 16) 0)) true
        (List.replicate (2 ^ 32 + 16) 0) 0x100000010 [] 0 (Buffer.zero 32) = .ok (0, written) →
      written = singlingOut (List.replicate (2 ^ 32 + 16) 0)
        ((List.replicate (2 ^ 32 + 16) 0).take 0x100000010) [] := by
  have hlen : (0x100000010 : UInt64).toNat = 2 ^ 32 + 16 := rfl
  have hkey : (List.replicate (2 ^ 32 + 16) (0 : UInt8)).take (0x100000010 : UInt64).toNat =
      List.replicate (2 ^ 32 + 16) 0 := by
    rw [hlen]
    exact List.take_of_length_le List.length_replicate.le
  intro hcovers
  have hcase := (calculateHmacSha256_covers_key_iff
    (singlingOut (List.replicate (2 ^ 32 + 16) 0)) true (List.replicate (2 ^ 32 + 16) 0) []
    0x100000010 0 (Buffer.zero 32) (by rw [hlen]; exact List.length_replicate.ge) (by decide)
    (by rw [hkey]; exact singlingOut_inj)).mp hcovers
  revert hcase
  decide

/-! ## The program -/

/-- Whether each of the six calls of {lit}`main` succeeds. -/
structure MainCalls where
  first : Bool
  second : Bool
  original : Bool
  genuine : Bool
  tampered : Bool
  wrongKey : Bool
deriving DecidableEq, Repr

/-- The three MACs that {lit}`main` prints, and which of its three checks it reports as
successful. -/
structure MainReport where
  shown : List (Buffer 32)
  genuine : Bool
  tampered : Bool
  wrongKey : Bool
deriving DecidableEq, Repr

/-- The call of {lit}`calculate_hmac_sha256` for a key and a message that are C strings. -/
def hmacOfStrings (hmac : HmacFunction) (succeeds : Bool) (key message : CString)
    (mac : Buffer 32) : Except Fault (Int32 × Buffer 32) :=
  calculateHmacSha256 hmac succeeds (key.chars ++ [0]) (UInt64.ofNat key.chars.length)
    (message.chars ++ [0]) (UInt64.ofNat message.chars.length) mac

/-- {lit}`main` of {lit}`hmac_demo.c`, for any keys and messages in place of its own. -/
def hmacMain (hmac : HmacFunction) (calls : MainCalls) (key1 key2 message tampered : CString)
    (mac originalMac verifyMacBuf : Buffer 32) : Except Fault MainReport := do
  let (_, mac) ← hmacOfStrings hmac calls.first key1 message mac
  let shown1 := mac
  let (_, mac) ← hmacOfStrings hmac calls.second key2 message mac
  let shown2 := mac
  let (_, originalMac) ← hmacOfStrings hmac calls.original key1 message originalMac
  let (_, verifyMacBuf) ← hmacOfStrings hmac calls.genuine key1 message verifyMacBuf
  let genuine ← verifyMac originalMac verifyMacBuf 32
  let (_, verifyMacBuf) ← hmacOfStrings hmac calls.tampered key1 tampered verifyMacBuf
  let tamperedCheck ← verifyMac originalMac verifyMacBuf 32
  let (_, verifyMacBuf) ← hmacOfStrings hmac calls.wrongKey key2 message verifyMacBuf
  let wrongKey ← verifyMac originalMac verifyMacBuf 32
  return {
    shown := [shown1, shown2, originalMac]
    genuine := genuine = 0
    tampered := tamperedCheck = 0
    wrongKey := wrongKey = 0 }

/-- The buffer after a call for two C strings. -/
def macAfter (hmac : HmacFunction) (succeeds : Bool) (key message : CString)
    (mac : Buffer 32) : Buffer 32 :=
  if succeeds then hmac key.chars message.chars else mac

theorem hmacOfStrings_eq (hmac : HmacFunction) (succeeds : Bool) {key message : CString}
    (mac : Buffer 32) (hkey : key.chars.length < 2 ^ 31)
    (hmessage : message.chars.length < 2 ^ 64) :
    hmacOfStrings hmac succeeds key message mac =
      .ok (if succeeds then 0 else -1, macAfter hmac succeeds key message mac) := by
  have hkeyLen : (UInt64.ofNat key.chars.length).toNat = key.chars.length :=
    UInt64.toNat_ofNat_of_lt' (hkey.trans (by decide))
  have hmessageLen : (UInt64.ofNat message.chars.length).toNat = message.chars.length :=
    UInt64.toNat_ofNat_of_lt' hmessage
  have hlow : low32 (UInt64.ofNat key.chars.length) = key.chars.length := by
    rw [low32_of_lt (by omega), hkeyLen]
  rw [hmacOfStrings, calculateHmacSha256_eq hmac succeeds mac (by simp [hkeyLen])
    (by simp [hmessageLen]), hlow, hmessageLen, List.take_left, List.take_left]
  cases succeeds with
  | false => rw [if_neg fun h => absurd h.2 (by decide)]; rfl
  | true => rw [if_pos ⟨hkey, rfl⟩]; rfl

theorem verifyMac_eq (mac1 mac2 : Buffer 32) :
    verifyMac mac1 mac2 32 = .ok (if mac1 = mac2 then 0 else -1) := by
  rw [verifyMac, constantTimeCompare_eq mac1 mac2 le_rfl le_rfl,
    List.take_of_length_le mac1.size_eq.le, List.take_of_length_le mac2.size_eq.le]
  simp only [Buffer.ext_iff]

/-- A check whose computation would write another MAC succeeds only if nothing is written. -/
theorem eq_macAfter_iff {hmac : HmacFunction} {succeeds : Bool} {key message : CString}
    {buf stored : Buffer 32} (hother : hmac key.chars message.chars ≠ stored) :
    stored = macAfter hmac succeeds key message buf ↔ succeeds = false ∧ stored = buf := by
  cases succeeds with
  | false => simp [macAfter]
  | true => exact iff_of_false (Ne.symm hother) fun h => absurd h.1 (by decide)

/-- Each check compares the stored MAC with what its buffer holds. -/
theorem hmacMain_eq (hmac : HmacFunction) (calls : MainCalls)
    {key1 key2 message tampered : CString} (mac originalMac verifyMacBuf : Buffer 32)
    (hkey1 : key1.chars.length < 2 ^ 31) (hkey2 : key2.chars.length < 2 ^ 31)
    (hmessage : message.chars.length < 2 ^ 64) (htampered : tampered.chars.length < 2 ^ 64) :
    hmacMain hmac calls key1 key2 message tampered mac originalMac verifyMacBuf =
      let shown1 := macAfter hmac calls.first key1 message mac
      let stored := macAfter hmac calls.original key1 message originalMac
      let buf1 := macAfter hmac calls.genuine key1 message verifyMacBuf
      let buf2 := macAfter hmac calls.tampered key1 tampered buf1
      .ok
        { shown := [shown1, macAfter hmac calls.second key2 message shown1, stored]
          genuine := stored = buf1
          tampered := stored = buf2
          wrongKey := stored = macAfter hmac calls.wrongKey key2 message buf2 } := by
  have hverdict : ∀ a b : Buffer 32,
      decide ((if a = b then (0 : Int32) else -1) = 0) = decide (a = b) := by
    intro a b
    by_cases hab : a = b <;> simp [hab]
  simp only [hmacMain, hmacOfStrings_eq hmac _ _ hkey1 hmessage,
    hmacOfStrings_eq hmac _ _ hkey2 hmessage, hmacOfStrings_eq hmac _ _ hkey1 htampered,
    verifyMac_eq, bind, Except.bind, pure, Except.pure, hverdict]

/-- For all keys of at most {lit}`INT_MAX` bytes, all messages below {lit}`2 ^ 64` bytes, every
pattern of failing calls and every content of the stack, where the MACs of the changed message
and of the other key differ from the stored one: {lit}`main` prints what its buffers hold; the
first check succeeds exactly if its buffer holds the stored MAC, the changed message passes
exactly if its computation fails after a successful first check, and the other key exactly if
its computation fails after that. -/
theorem hmac_main_verdicts (hmac : HmacFunction) (calls : MainCalls)
    (key1 key2 message tampered : CString) (mac originalMac verifyMacBuf stored : Buffer 32)
    (hkey1 : key1.chars.length < 2 ^ 31) (hkey2 : key2.chars.length < 2 ^ 31)
    (hmessage : message.chars.length < 2 ^ 64) (htampered : tampered.chars.length < 2 ^ 64)
    (hstored : stored = macAfter hmac calls.original key1 message originalMac)
    (hother : hmac key1.chars tampered.chars ≠ stored)
    (hwrong : hmac key2.chars message.chars ≠ stored) :
    ∃ report,
      hmacMain hmac calls key1 key2 message tampered mac originalMac verifyMacBuf = .ok report ∧
      report.shown =
        [macAfter hmac calls.first key1 message mac,
          macAfter hmac calls.second key2 message (macAfter hmac calls.first key1 message mac),
          stored] ∧
      (report.genuine = true ↔
        stored = macAfter hmac calls.genuine key1 message verifyMacBuf) ∧
      (report.tampered = true ↔ calls.tampered = false ∧ report.genuine = true) ∧
      (report.wrongKey = true ↔ calls.wrongKey = false ∧ report.tampered = true) := by
  subst hstored
  refine ⟨_, hmacMain_eq hmac calls mac originalMac verifyMacBuf hkey1 hkey2 hmessage htampered,
    rfl, decide_eq_true_iff, ?_, ?_⟩
  · simp only [decide_eq_true_eq]
    exact eq_macAfter_iff hother
  · simp only [decide_eq_true_eq]
    exact eq_macAfter_iff hwrong

/-- {lit}`"SecretKey123!@#"`. -/
def demoKey1 : CString :=
  ⟨[0x53, 0x65, 0x63, 0x72, 0x65, 0x74, 0x4B, 0x65, 0x79, 0x31, 0x32, 0x33, 0x21, 0x40, 0x23],
    by decide⟩

/-- {lit}`"DifferentKey456"`. -/
def demoKey2 : CString :=
  ⟨[0x44, 0x69, 0x66, 0x66, 0x65, 0x72, 0x65, 0x6E, 0x74, 0x4B, 0x65, 0x79, 0x34, 0x35, 0x36],
    by decide⟩

/-- {lit}`"CAN Message: Engine RPM = 3500"`. -/
def demoMessage : CString :=
  ⟨[0x43, 0x41, 0x4E, 0x20, 0x4D, 0x65, 0x73, 0x73, 0x61, 0x67, 0x65, 0x3A, 0x20, 0x45, 0x6E,
    0x67, 0x69, 0x6E, 0x65, 0x20, 0x52, 0x50, 0x4D, 0x20, 0x3D, 0x20, 0x33, 0x35, 0x30, 0x30],
    by decide⟩

/-- {lit}`"CAN Message: Engine RPM = 9999"`. -/
def demoTampered : CString :=
  ⟨[0x43, 0x41, 0x4E, 0x20, 0x4D, 0x65, 0x73, 0x73, 0x61, 0x67, 0x65, 0x3A, 0x20, 0x45, 0x6E,
    0x67, 0x69, 0x6E, 0x65, 0x20, 0x52, 0x50, 0x4D, 0x20, 0x3D, 0x20, 0x39, 0x39, 0x39, 0x39],
    by decide⟩

/-- HMAC-SHA256 on what the program hands to it; zero on all else. -/
def demoHmac : HmacFunction := fun key message =>
  if key = demoKey1.chars ∧ message = demoMessage.chars then
    Buffer.initialised 32
      [0xB3, 0xCB, 0x91, 0xC9, 0x00, 0x35, 0x7C, 0xB8, 0x1F, 0xE1, 0x9C, 0xF3, 0x01, 0xCD, 0x64,
       0xD5, 0xD9, 0x9C, 0x8C, 0xF3, 0x04, 0xC2, 0x5A, 0xD3, 0xE0, 0xC1, 0x5F, 0xC4, 0xC9, 0x78,
       0x62, 0x8B]
  else if key = demoKey1.chars ∧ message = demoTampered.chars then
    Buffer.initialised 32
      [0x1D, 0xB8, 0x7A, 0x8C, 0xD8, 0x25, 0x63, 0x16, 0xA3, 0x3D, 0xF8, 0x3A, 0xB9, 0x27, 0xE0,
       0xE3, 0xDE, 0xFC, 0xDA, 0x3D, 0xC5, 0x56, 0x50, 0x35, 0x12, 0x49, 0xB8, 0x9E, 0x52, 0xD9,
       0xEA, 0x2A]
  else if key = demoKey2.chars ∧ message = demoMessage.chars then
    Buffer.initialised 32
      [0x45, 0x98, 0x33, 0xDB, 0x31, 0xF8, 0x3C, 0xDB, 0xE8, 0x74, 0x3F, 0x22, 0xE7, 0x06, 0xBA,
       0xFF, 0x20, 0x52, 0x33, 0x59, 0x54, 0x44, 0x12, 0xD8, 0x5B, 0x1C, 0xDA, 0xC2, 0xCE, 0x31,
       0xC3, 0x07]
  else Buffer.zero 32

/-- The computation for the changed message fails. -/
def tamperedFails : MainCalls where
  first := true
  second := true
  original := true
  genuine := true
  tampered := false
  wrongKey := true

/-- The changed message is then reported as genuine. -/
theorem changed_message_passes :
    ∃ report, hmacMain demoHmac tamperedFails demoKey1 demoKey2 demoMessage demoTampered
        (Buffer.zero 32) (Buffer.zero 32) (Buffer.zero 32) = .ok report ∧
      report.tampered = true ∧ report.wrongKey = false := by
  rcases hmac_main_verdicts demoHmac tamperedFails demoKey1 demoKey2 demoMessage demoTampered
    (Buffer.zero 32) (Buffer.zero 32) (Buffer.zero 32) _ (by decide) (by decide) (by decide)
    (by decide) rfl (by decide) (by decide) with
    ⟨report, hrun, -, hgenuine, htampered, hwrong⟩
  refine ⟨report, hrun, htampered.mpr ⟨rfl, hgenuine.mpr (by decide)⟩, ?_⟩
  rw [Bool.eq_false_iff]
  exact fun hpasses => absurd (hwrong.mp hpasses).1 (by decide)

end AutomotiveSecurity.HmacDemo
