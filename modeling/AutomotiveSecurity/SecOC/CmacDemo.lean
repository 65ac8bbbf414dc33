import AutomotiveSecurity.OpenSSL.Cmac

/-!
# The CMAC demonstration

{lit}`calculate_cmac` of {lit}`cmac_demo.c` returns 0 whatever the CMAC calls report, and it
picks the cipher by a test for 16-byte keys alone.  {lit}`main` compares the first four
bytes of two of its results.

Main results:

- Theorem {lit}`calculateCmac_eq`: what the function leaves in its output parameters, for
  every key length and every pattern of failures.
- Theorem {lit}`calculateCmac_truthful_iff`: the return value can be relied on exactly for
  keys of 16 and 32 bytes when no call fails.
- Theorem {lit}`tampering_unnoticed`: after a failed call {lit}`main` compares a MAC with
  itself.

Current gaps:

- A failing {lit}`CMAC_Final` writes nothing; in the library it clears {lit}`mac`.
- The demonstration's texts are left out.
-/

namespace AutomotiveSecurity.CmacDemo

open Memory OpenSSL

/-! ## The function -/

/-- What {lit}`mac` and {lit}`*mac_len` hold. -/
structure CmacOutput where
  mac : Buffer 16
  macLen : UInt64
deriving DecidableEq, Repr

/-- The cipher for a key length: AES-128 for 16 bytes, AES-256 for everything else. -/
def cipherFor (keyLen : UInt64) : EvpCipher :=
  if keyLen = 16 then .aes128Cbc else .aes256Cbc

/-- {lit}`calculate_cmac`. -/
def calculateCmac (cmac : CmacFunction) (calls : CmacCalls) (key : List UInt8)
    (keyLen : UInt64) (data : List UInt8) (dataLen : UInt64) (output : CmacOutput) :
    Except Fault (Int32 × CmacOutput) := do
  let ctx ← (cmacCtxNew calls.ctxNew).dereference
  let keyBytes ← load key keyLen.toNat
  let ctx := cmacInit calls.init ctx keyBytes (cipherFor keyLen)
  let message ← load data dataLen.toNat
  let ctx := cmacUpdate calls.update ctx message
  match cmacFinal cmac calls.final ctx with
  | some mac => return (0, { mac := mac, macLen := 16 })
  | none => return (0, output)

/-- What a computation with a key of the cipher's length leaves behind. -/
def outputAfter (cmac : CmacFunction) (calls : CmacCalls) (key message : List UInt8)
    (output : CmacOutput) : CmacOutput :=
  if calls.ctxNew && calls.init && calls.final then
    { mac := cmac key (if calls.update then message else []), macLen := 16 }
  else output

@[simp]
theorem outputAfter_success (cmac : CmacFunction) (key message : List UInt8)
    (output : CmacOutput) :
    outputAfter cmac .success key message output = { mac := cmac key message, macLen := 16 } :=
  rfl

/-- The chosen cipher takes the key exactly if it has 16 or 32 bytes. -/
theorem cipherFor_keyLength_iff {keyLen : UInt64} :
    (cipherFor keyLen).keyLength = keyLen.toNat ↔ keyLen = 16 ∨ keyLen = 32 := by
  unfold cipherFor
  by_cases h16 : keyLen = 16
  · subst h16
    decide
  · have h32 : EvpCipher.aes256Cbc.keyLength = (32 : UInt64).toNat := rfl
    rw [if_neg h16, or_iff_right h16, h32, UInt64.toNat_inj, eq_comm]

/-- The whole effect of {lit}`calculate_cmac` once it has a context: with a key of another length
than 16 or 32 bytes it leaves its output parameters as they were, and it returns 0 in every
case. -/
theorem calculateCmac_eq (cmac : CmacFunction) (calls : CmacCalls)
    (hnew : calls.ctxNew = true) {key data : List UInt8} {keyLen dataLen : UInt64}
    (output : CmacOutput) (hkey : keyLen.toNat ≤ key.length)
    (hdata : dataLen.toNat ≤ data.length) :
    calculateCmac cmac calls key keyLen data dataLen output =
      .ok (0, if keyLen = 16 ∨ keyLen = 32 then
          outputAfter cmac calls (key.take keyLen.toNat) (data.take dataLen.toNat) output
        else output) := by
  have hlength : (key.take keyLen.toNat).length = keyLen.toNat := List.length_take_of_le hkey
  have hctx : (cmacCtxNew calls.ctxNew).dereference = .ok (cmacCtxNew calls.ctxNew) := by
    rw [hnew]
    rfl
  unfold calculateCmac
  rw [hctx, load_of_le hkey, load_of_le hdata]
  simp only [bind, Except.bind]
  by_cases hsize : keyLen = 16 ∨ keyLen = 32
  · have hcipher : (key.take keyLen.toNat).length = (cipherFor keyLen).keyLength := by
      rw [hlength, cipherFor_keyLength_iff.mpr hsize]
    rw [cmacFinal_of_calls cmac calls hcipher, if_pos hsize, outputAfter]
    cases calls.ctxNew && calls.init && calls.final <;> rfl
  · have hcipher : (key.take keyLen.toNat).length ≠ (cipherFor keyLen).keyLength := by
      rw [hlength]
      exact fun h => hsize (cipherFor_keyLength_iff.mp h.symm)
    rw [cmacFinal_of_wrong_key cmac calls hcipher, if_neg hsize]
    rfl

/-- Without a context the program ends in {lit}`CMAC_Init`. -/
theorem calculateCmac_of_null (cmac : CmacFunction) {calls : CmacCalls}
    (hnull : calls.ctxNew = false) (key data : List UInt8) (keyLen dataLen : UInt64)
    (output : CmacOutput) :
    calculateCmac cmac calls key keyLen data dataLen output = .error (.read 0) := by
  rw [calculateCmac, hnull]
  rfl

/-- It returns 0 whenever it returns. -/
theorem calculateCmac_returns_zero (cmac : CmacFunction) (calls : CmacCalls)
    {key data : List UInt8} {keyLen dataLen : UInt64} {output output' : CmacOutput} {r : Int32}
    (hkey : keyLen.toNat ≤ key.length) (hdata : dataLen.toNat ≤ data.length)
    (hrun : calculateCmac cmac calls key keyLen data dataLen output = .ok (r, output')) :
    r = 0 := by
  cases hnew : calls.ctxNew with
  | false =>
      rw [calculateCmac_of_null cmac hnew] at hrun
      contradiction
  | true =>
      rw [calculateCmac_eq cmac calls hnew output hkey hdata] at hrun
      exact (congrArg Prod.fst (Except.ok.inj hrun)).symm

/-! ## What the return value tells -/

/-- The return value tells whether there is a MAC: 0 stands for the CMAC of the data under
the whole key, and a key the chosen cipher does not take or a failing call gives another
value. -/
def Truthful (cmac : CmacFunction) (calls : CmacCalls) (key : List UInt8) (keyLen : UInt64)
    (data : List UInt8) (dataLen : UInt64) (run : Except Fault (Int32 × CmacOutput)) : Prop :=
  (∀ output, run = .ok (0, output) →
    output.macLen = 16 ∧
      output.mac = cmac (key.take keyLen.toNat) (data.take dataLen.toNat)) ∧
  ((cipherFor keyLen).keyLength ≠ keyLen.toNat ∨ calls ≠ .success →
    ∃ r output, run = .ok (r, output) ∧ r ≠ 0)

/-- For every key, data and length, every pattern of failures and every old content of
{lit}`mac` and {lit}`*mac_len`: the return value of {lit}`calculate_cmac` tells whether it has
computed the CMAC exactly if the key has 16 or 32 bytes and no call fails.  Without a context
there is no return value at all. -/
theorem calculateCmac_truthful_iff (cmac : CmacFunction) (calls : CmacCalls)
    {key data : List UInt8} {keyLen dataLen : UInt64} (output : CmacOutput)
    (hkey : keyLen.toNat ≤ key.length) (hdata : dataLen.toNat ≤ data.length) :
    Truthful cmac calls key keyLen data dataLen
        (calculateCmac cmac calls key keyLen data dataLen output) ↔
      (keyLen = 16 ∨ keyLen = 32) ∧ calls = .success := by
  have hworks : ¬((cipherFor keyLen).keyLength ≠ keyLen.toNat ∨ calls ≠ .success) ↔
      (keyLen = 16 ∨ keyLen = 32) ∧ calls = .success :=
    not_or.trans (and_congr (not_not.trans cipherFor_keyLength_iff) not_not)
  refine (truthful_iff_of_returns_zero
    (fun hrun => calculateCmac_returns_zero cmac calls hkey hdata hrun) ?_).trans hworks
  rw [hworks]
  rintro ⟨hsize, rfl⟩
  have hrun := calculateCmac_eq cmac .success rfl output hkey hdata
  rw [if_pos hsize, outputAfter_success] at hrun
  exact ⟨_, hrun, rfl, rfl⟩

/-! ## The demonstration -/

/-- {lit}`key` of {lit}`main`. -/
def demoKey : List UInt8 :=
  [0x2B, 0x7E, 0x15, 0x16, 0x28, 0xAE, 0xD2, 0xA6,
   0xAB, 0xF7, 0x15, 0x88, 0x09, 0xCF, 0x4F, 0x3C]

/-- {lit}`can_msg` of {lit}`main`. -/
def canMsg : List UInt8 :=
  [0x12, 0x34, 0x56, 0x78, 0x9A, 0xBC, 0xDE, 0xF0]

/-- {lit}`can_msg` after {lit}`can_msg[0] ^= 0x01`. -/
def tamperedMsg : List UInt8 :=
  canMsg.modify 0 (· ^^^ 0x01)

/-- Which calls succeed in the three computations of {lit}`main`. -/
structure DemoCalls where
  first : CmacCalls
  second : CmacCalls
  third : CmacCalls
deriving DecidableEq, Repr

/-- The MAC shown, and whether {lit}`main` reports that the MACs of one message agree and
that tampering is detected. -/
structure DemoReport where
  shown : List UInt8
  authenticated : Bool
  tamperingDetected : Bool
deriving DecidableEq, Repr

/-- {lit}`main` of {lit}`cmac_demo.c`, with what {lit}`mac`, {lit}`verify_mac` and
{lit}`verify_len` hold before they are written. -/
def demoMain (cmac : CmacFunction) (calls : DemoCalls) (mac : Buffer 16)
    (verify : CmacOutput) : Except Fault DemoReport := do
  let (_, sent) ← calculateCmac cmac calls.first demoKey 16 canMsg 8 { mac := mac, macLen := 0 }
  let shown ← load sent.mac.bytes sent.macLen.toNat
  let (_, verify) ← calculateCmac cmac calls.second demoKey 16 canMsg 8 verify
  let same ← memcmp sent.mac.bytes verify.mac.bytes 4
  let (_, verify) ← calculateCmac cmac calls.third demoKey 16 tamperedMsg 8 verify
  let different ← memcmp sent.mac.bytes verify.mac.bytes 4
  return {
    shown := shown
    authenticated := same = 0
    tamperingDetected := different ≠ 0 }

theorem memcmp_macs (left right : Buffer 16) :
    ∃ r, memcmp left.bytes right.bytes 4 = .ok r ∧
      (r = 0 ↔ left.bytes.take 4 = right.bytes.take 4) := by
  apply memcmp_eq_zero_iff
  · rw [left.size_eq]
    decide
  · rw [right.size_eq]
    decide

/-- A computation of {lit}`main` on either message. -/
theorem calculateCmac_demo (cmac : CmacFunction) {calls : CmacCalls}
    (hnew : calls.ctxNew = true) {message : List UInt8} (hmessage : message.length = 8)
    (output : CmacOutput) :
    calculateCmac cmac calls demoKey 16 message 8 output =
      .ok (0, outputAfter cmac calls demoKey message output) := by
  have hkey : (16 : UInt64).toNat ≤ demoKey.length := by decide
  have hdata : (8 : UInt64).toNat ≤ message.length := hmessage.ge
  have hwhole : message.take (8 : UInt64).toNat = message := List.take_of_length_le hmessage.le
  rw [calculateCmac_eq cmac calls hnew output hkey hdata, if_pos (Or.inl rfl), hwhole]
  rfl

/-- Once the first MAC has been computed, {lit}`main` compares its front with that of
whatever the other two computations, given their contexts, have left in {lit}`verify_mac`. -/
theorem demoMain_eq (cmac : CmacFunction) (second third : CmacCalls)
    (hsecond : second.ctxNew = true) (hthird : third.ctxNew = true) (mac : Buffer 16)
    (verify : CmacOutput) :
    ∃ report, demoMain cmac ⟨.success, second, third⟩ mac verify = .ok report ∧
      report.shown = (cmac demoKey canMsg).bytes ∧
      (report.authenticated = true ↔ (cmac demoKey canMsg).bytes.take 4 =
        (outputAfter cmac second demoKey canMsg verify).mac.bytes.take 4) ∧
      (report.tamperingDetected = true ↔ (cmac demoKey canMsg).bytes.take 4 ≠
        (outputAfter cmac third demoKey tamperedMsg
          (outputAfter cmac second demoKey canMsg verify)).mac.bytes.take 4) := by
  rcases memcmp_macs (cmac demoKey canMsg)
      (outputAfter cmac second demoKey canMsg verify).mac with
    ⟨same, hsame, hsameZero⟩
  rcases memcmp_macs (cmac demoKey canMsg)
      (outputAfter cmac third demoKey tamperedMsg
      (outputAfter cmac second demoKey canMsg verify)).mac with
    ⟨different, hdifferent, hdifferentZero⟩
  have hshown : load (cmac demoKey canMsg).bytes (16 : UInt64).toNat =
      .ok (cmac demoKey canMsg).bytes := load_whole (Buffer.size_eq _)
  refine ⟨{ shown := (cmac demoKey canMsg).bytes, authenticated := same = 0,
            tamperingDetected := different ≠ 0 }, ?_, rfl, ?_, ?_⟩
  · have hcan : canMsg.length = 8 := rfl
    have htampered : tamperedMsg.length = 8 := rfl
    have hfirst : CmacCalls.success.ctxNew = true := rfl
    simp only [demoMain, calculateCmac_demo cmac hfirst hcan,
      calculateCmac_demo cmac hsecond hcan, calculateCmac_demo cmac hthird htampered,
      outputAfter_success, bind, Except.bind, hshown, hsame, hdifferent, pure,
      Except.pure]
  · exact decide_eq_true_iff.trans hsameZero
  · exact decide_eq_true_iff.trans (not_congr hdifferentZero)

/-- Without a failing call tampering is detected exactly if it changes the front of the
MAC. -/
theorem demoMain_of_success (cmac : CmacFunction) (mac : Buffer 16) (verify : CmacOutput) :
    ∃ report, demoMain cmac ⟨.success, .success, .success⟩ mac verify = .ok report ∧
      report.authenticated = true ∧
      (report.tamperingDetected = true ↔
        (cmac demoKey canMsg).bytes.take 4 ≠ (cmac demoKey tamperedMsg).bytes.take 4) := by
  rcases demoMain_eq cmac .success .success rfl rfl mac verify with
    ⟨report, hrun, -, hsame, hdifferent⟩
  exact ⟨report, hrun, hsame.mpr rfl, hdifferent⟩

/-- If the last computation gets a context but {lit}`CMAC_Init` fails, no MAC is written.  The
MAC of the untampered message is then still in {lit}`verify_mac`, and the tampering goes unnoticed
whatever the MACs are. -/
theorem tampering_unnoticed (cmac : CmacFunction) {third : CmacCalls}
    (hthird : third.ctxNew = true) (hinit : third.init = false) (mac : Buffer 16)
    (verify : CmacOutput) :
    ∃ report, demoMain cmac ⟨.success, .success, third⟩ mac verify = .ok report ∧
      report.tamperingDetected = false := by
  rcases demoMain_eq cmac .success third rfl hthird mac verify with
    ⟨report, hrun, -, -, hdifferent⟩
  refine ⟨report, hrun, Bool.eq_false_iff.mpr fun hdetected => hdifferent.mp hdetected ?_⟩
  simp [outputAfter, hinit, CmacCalls.success]

/-- AES-CMAC under the demonstration's key on its two messages; zero on all else. -/
def demoCmac : CmacFunction := fun key message =>
  if key ≠ demoKey then Buffer.zero 16
  else if message = canMsg then
    Buffer.initialised 16
      [0x4A, 0xB3, 0x6A, 0xDA, 0x2E, 0x25, 0x34, 0x75,
       0xB6, 0x27, 0xCC, 0xFE, 0x33, 0x4E, 0x53, 0x7B]
  else if message = tamperedMsg then
    Buffer.initialised 16
      [0xE7, 0xE7, 0xDE, 0xB1, 0x3D, 0xD3, 0xC6, 0xC3,
       0x65, 0x32, 0x5C, 0x6D, 0x50, 0xD6, 0x9F, 0x9D]
  else Buffer.zero 16

/-- An AES-192 key is reported as success, and nothing has been written. -/
theorem aes192_key_reported_as_success :
    calculateCmac demoCmac .success (demoKey ++ demoKey.take 8) 24 canMsg 8
        { mac := Buffer.zero 16, macLen := 0 } =
      .ok (0, { mac := Buffer.zero 16, macLen := 0 }) := by
  rfl

/-- The first computation of the demonstration. -/
theorem demo_cmac_truthful :
    Truthful demoCmac .success demoKey 16 canMsg 8
      (calculateCmac demoCmac .success demoKey 16 canMsg 8
        { mac := Buffer.zero 16, macLen := 0 }) :=
  (calculateCmac_truthful_iff demoCmac .success { mac := Buffer.zero 16, macLen := 0 }
    (by decide) (by decide)).mpr ⟨Or.inl rfl, rfl⟩

end AutomotiveSecurity.CmacDemo
