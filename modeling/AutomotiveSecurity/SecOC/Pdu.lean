import AutomotiveSecurity.Foundations.HostInteger
import AutomotiveSecurity.OpenSSL.Cmac

/-!
# SecOC PDUs and their truncated MAC

The PDU of {lit}`secoc_sim.c` and its two MAC functions.  Both assemble the
authenticated string in a 16-byte local array, run the four CMAC calls and look at
the first four bytes of a second local array; what these arrays hold on entry is
part of the call.

Main results:

- Theorem {lit}`authenticated_inj`: the authenticated string determines
  {lit}`data_len`, the payload and the freshness value.
- Theorems {lit}`calculateSecocMac_of_calls` and {lit}`verifySecocMac_of_calls`: which four
  bytes are stored and compared, for every pattern of failing calls.
- Theorems {lit}`calculateSecocMac_eq` and {lit}`verifySecocMac_eq`: without a failure both
  functions compute the CMAC of the same string.
- Theorem {lit}`mac_authenticates_exactly_payload_and_freshness`: what the MAC
  covers, for every MAC function.

Current gaps:

- The main results are about CMAC calls that succeed and a {lit}`data_len` of at most 8;
  the other cases are treated in {lit}`SecOC.FailureModes`.
-/

namespace AutomotiveSecurity.SecOC

open HostInteger Memory OpenSSL

/-! ## Data -/

/-- {lit}`SecOC_PDU`. -/
@[ext]
structure SecOCPDU where
  data : Buffer 8
  dataLen : UInt8
  freshness : UInt32
  mac : Buffer 4
deriving DecidableEq, Repr

/-- The value of {lit}`data_len` is at most the size of {lit}`data`. -/
def SecOCPDU.Fits (pdu : SecOCPDU) : Prop :=
  pdu.dataLen.toNat ≤ 8

instance (pdu : SecOCPDU) : Decidable pdu.Fits :=
  inferInstanceAs (Decidable (pdu.dataLen.toNat ≤ 8))

/-- {lit}`secoc_key`, the key both ECUs share. -/
def secocKey : List UInt8 :=
  [0x00, 0x01, 0x02, 0x03, 0x04, 0x05, 0x06, 0x07,
   0x08, 0x09, 0x0A, 0x0B, 0x0C, 0x0D, 0x0E, 0x0F]

/-- What the two local arrays of a MAC function hold on entry. -/
structure Frame where
  authData : Buffer 16
  fullMac : Buffer 16
deriving DecidableEq, Repr

/-! ## The two MAC functions -/

/-- {lit}`calculate_secoc_mac`. -/
def calculateSecocMac (cmac : CmacFunction) (order : ByteOrder) (calls : CmacCalls)
    (frame : Frame) (pdu : SecOCPDU) : Except Fault SecOCPDU := do
  let authData ← memcpy frame.authData 0 pdu.data.bytes pdu.dataLen.toNat
  let authData ← memcpy authData pdu.dataLen.toNat (uint32Bytes order pdu.freshness) 4
  let ctx := cmacCtxNew calls.ctxNew
  let ctx := cmacInit calls.init ctx secocKey .aes128Cbc
  let message ← load authData.bytes (pdu.dataLen.toNat + 4)
  let ctx := cmacUpdate calls.update ctx message
  let fullMac := (cmacFinal cmac calls.final ctx).getD frame.fullMac
  let mac ← memcpy pdu.mac 0 fullMac.bytes 4
  return { pdu with mac := mac }

/-- {lit}`verify_secoc_mac`. -/
def verifySecocMac (cmac : CmacFunction) (order : ByteOrder) (calls : CmacCalls)
    (frame : Frame) (pdu : SecOCPDU) : Except Fault Int := do
  let authData ← memcpy frame.authData 0 pdu.data.bytes pdu.dataLen.toNat
  let authData ← memcpy authData pdu.dataLen.toNat (uint32Bytes order pdu.freshness) 4
  let ctx := cmacCtxNew calls.ctxNew
  let ctx := cmacInit calls.init ctx secocKey .aes128Cbc
  let message ← load authData.bytes (pdu.dataLen.toNat + 4)
  let ctx := cmacUpdate calls.update ctx message
  let expectedMac := (cmacFinal cmac calls.final ctx).getD frame.fullMac
  let comparison ← memcmp pdu.mac.bytes expectedMac.bytes 4
  return if comparison = 0 then 1 else 0

/-! ## The authenticated string -/

/-- The bytes of {lit}`data` that count. -/
def SecOCPDU.payload (pdu : SecOCPDU) : List UInt8 :=
  pdu.data.bytes.take pdu.dataLen.toNat

/-- The payload followed by the freshness value. -/
def SecOCPDU.authenticated (order : ByteOrder) (pdu : SecOCPDU) : List UInt8 :=
  pdu.payload ++ uint32Bytes order pdu.freshness

/-- The first four bytes of the CMAC of the authenticated string. -/
def SecOCPDU.tag (cmac : CmacFunction) (order : ByteOrder) (pdu : SecOCPDU) : Buffer 4 :=
  (cmac secocKey (pdu.authenticated order)).slice 0 4 (by decide)

theorem SecOCPDU.payload_length {pdu : SecOCPDU} (hfits : pdu.Fits) :
    pdu.payload.length = pdu.dataLen.toNat :=
  pdu.data.length_take hfits

/-- The authenticated string has no length field, and still determines the length,
the payload and the freshness value. -/
theorem authenticated_inj (order : ByteOrder) {p q : SecOCPDU} (hp : p.Fits) (hq : q.Fits) :
    p.authenticated order = q.authenticated order ↔
      p.dataLen = q.dataLen ∧ p.payload = q.payload ∧ p.freshness = q.freshness := by
  constructor
  · intro h
    have hparts := append_uint32Bytes_inj order h
    have hlen : p.dataLen.toNat = q.dataLen.toNat := by
      rw [← SecOCPDU.payload_length hp, hparts.1, SecOCPDU.payload_length hq]
    exact ⟨UInt8.toNat.inj hlen, hparts⟩
  · intro h
    rw [SecOCPDU.authenticated, SecOCPDU.authenticated, h.2.1, h.2.2]

/-- Both functions leave the authenticated string at the start of the array that they
hand to {lit}`CMAC_Update`. -/
theorem assemble_authenticated (order : ByteOrder) (array : Buffer 16) {pdu : SecOCPDU}
    (hfits : pdu.Fits) :
    ∃ withData withFreshness : Buffer 16,
      memcpy array 0 pdu.data.bytes pdu.dataLen.toNat = .ok withData ∧
        memcpy withData pdu.dataLen.toNat (uint32Bytes order pdu.freshness) 4 =
          .ok withFreshness ∧
        load withFreshness.bytes (pdu.dataLen.toNat + 4) = .ok (pdu.authenticated order) := by
  have hlen : pdu.dataLen.toNat ≤ 8 := hfits
  rcases memcpy_of_le array 0 pdu.data.bytes pdu.dataLen.toNat
      (by rw [pdu.data.size_eq]; exact hlen) (by omega) with
    ⟨withData, hdata, hdataBytes⟩
  rcases memcpy_of_le withData pdu.dataLen.toNat (uint32Bytes order pdu.freshness) 4
      (by simp) (by omega) with
    ⟨withFreshness, hfresh, hfreshBytes⟩
  refine ⟨withData, withFreshness, hdata, hfresh, ?_⟩
  have hstart : withData.bytes.take pdu.dataLen.toNat = pdu.payload := by
    rw [hdataBytes, List.take_zero, List.nil_append]
    exact List.take_left' (SecOCPDU.payload_length hfits)
  have hfour : (uint32Bytes order pdu.freshness).take 4 = uint32Bytes order pdu.freshness :=
    List.take_of_length_le (by simp)
  rw [hstart, hfour] at hfreshBytes
  have hsize : pdu.dataLen.toNat + 4 ≤ withFreshness.bytes.length := by
    rw [withFreshness.size_eq]
    omega
  rw [load_of_le hsize, hfreshBytes]
  congr 1
  apply List.take_left'
  rw [List.length_append, SecOCPDU.payload_length hfits, uint32Bytes_length]

/-- What the second local array holds when its first four bytes are stored or compared: the
result of {lit}`CMAC_Final`, or the bytes it held on entry. -/
def SecOCPDU.expectedMac (cmac : CmacFunction) (order : ByteOrder) (calls : CmacCalls)
    (frame : Frame) (pdu : SecOCPDU) : Buffer 16 :=
  if calls.ctxNew && calls.init && calls.final then
    cmac secocKey (if calls.update then pdu.authenticated order else [])
  else frame.fullMac

/-- The MAC field takes the first four bytes of a CMAC. -/
theorem truncated_fits : 0 + 4 ≤ 16 := by
  decide

/-- The four bytes that are stored or compared as the MAC of a PDU. -/
def SecOCPDU.storedMac (cmac : CmacFunction) (order : ByteOrder) (calls : CmacCalls)
    (frame : Frame) (pdu : SecOCPDU) : Buffer 4 :=
  (pdu.expectedMac cmac order calls frame).slice 0 4 truncated_fits

@[simp]
theorem storedMac_success (cmac : CmacFunction) (order : ByteOrder) (frame : Frame)
    (pdu : SecOCPDU) : pdu.storedMac cmac order .success frame = pdu.tag cmac order :=
  rfl

/-- The bytes in that array after the four calls. -/
theorem cmacFinal_getD (cmac : CmacFunction) (order : ByteOrder) (calls : CmacCalls)
    (frame : Frame) (pdu : SecOCPDU) :
    (cmacFinal cmac calls.final
        (cmacUpdate calls.update
          (cmacInit calls.init (cmacCtxNew calls.ctxNew) secocKey .aes128Cbc)
          (pdu.authenticated order))).getD frame.fullMac =
      pdu.expectedMac cmac order calls frame := by
  rw [cmacFinal_of_calls cmac calls (by rfl), SecOCPDU.expectedMac]
  split <;> rfl

/-- Whatever fails, {lit}`calculate_secoc_mac` changes nothing but the MAC. -/
theorem calculateSecocMac_of_calls (cmac : CmacFunction) (order : ByteOrder)
    (calls : CmacCalls) (frame : Frame) {pdu : SecOCPDU} (hfits : pdu.Fits) :
    calculateSecocMac cmac order calls frame pdu =
      .ok { pdu with mac := pdu.storedMac cmac order calls frame } := by
  rcases assemble_authenticated order frame.authData hfits with
    ⟨withData, withFreshness, hdata, hfresh, hload⟩
  rcases memcpy_of_le pdu.mac 0 (pdu.expectedMac cmac order calls frame).bytes 4
      (by simp) (by omega) with
    ⟨mac, hmac, hmacBytes⟩
  have hstored : mac = pdu.storedMac cmac order calls frame := by
    apply Buffer.ext
    rw [hmacBytes, List.drop_eq_nil_of_le (by simp)]
    simp [SecOCPDU.storedMac, Buffer.slice]
  simp only [calculateSecocMac, hdata, hfresh, hload, bind, Except.bind]
  rw [cmacFinal_getD]
  simp only [hmac, hstored]
  rfl

/-- The MAC that {lit}`calculate_secoc_mac` stores is the tag of the PDU, and it
changes nothing else. -/
theorem calculateSecocMac_eq (cmac : CmacFunction) (order : ByteOrder) (frame : Frame)
    {pdu : SecOCPDU} (hfits : pdu.Fits) :
    calculateSecocMac cmac order .success frame pdu =
      .ok { pdu with mac := pdu.tag cmac order } :=
  calculateSecocMac_of_calls cmac order .success frame hfits

/-- {lit}`verify_secoc_mac` compares four bytes and looks at nothing else. -/
theorem verifySecocMac_of_calls (cmac : CmacFunction) (order : ByteOrder)
    (calls : CmacCalls) (frame : Frame) {pdu : SecOCPDU} (hfits : pdu.Fits) :
    verifySecocMac cmac order calls frame pdu =
      .ok (if pdu.mac = pdu.storedMac cmac order calls frame then 1 else 0) := by
  rcases assemble_authenticated order frame.authData hfits with
    ⟨withData, withFreshness, hdata, hfresh, hload⟩
  rcases memcmp_eq_zero_iff pdu.mac.bytes (pdu.expectedMac cmac order calls frame).bytes 4
      (by simp) (by simp) with
    ⟨r, hr, hzero⟩
  have hmac : r = 0 ↔ pdu.mac = pdu.storedMac cmac order calls frame := by
    rw [hzero, List.take_of_length_le (by simp), Buffer.ext_iff]
    simp [SecOCPDU.storedMac, Buffer.slice]
  simp only [verifySecocMac, hdata, hfresh, hload, bind, Except.bind]
  rw [cmacFinal_getD]
  simp only [hr, hmac]
  rfl

/-- {lit}`verify_secoc_mac` returns 1 exactly when the PDU carries its own tag. -/
theorem verifySecocMac_eq (cmac : CmacFunction) (order : ByteOrder) (frame : Frame)
    {pdu : SecOCPDU} (hfits : pdu.Fits) :
    verifySecocMac cmac order .success frame pdu =
      .ok (if pdu.mac = pdu.tag cmac order then 1 else 0) :=
  verifySecocMac_of_calls cmac order .success frame hfits

/-! ## What the MAC covers -/

/-- A PDU that carries its own tag passes {lit}`verify_secoc_mac`. -/
theorem verifySecocMac_of_tag (cmac : CmacFunction) (order : ByteOrder) (frame : Frame)
    {pdu : SecOCPDU} (hfits : pdu.Fits) :
    verifySecocMac cmac order .success frame { pdu with mac := pdu.tag cmac order } =
      .ok 1 := by
  have hfits' : SecOCPDU.Fits { pdu with mac := pdu.tag cmac order } := hfits
  rw [verifySecocMac_eq cmac order frame hfits', if_pos]
  rfl

/-- The authenticated strings of two PDUs agree exactly when {lit}`data_len`, the
payload and the freshness value do; {lit}`calculate_secoc_mac` stores the truncated
MAC of that string and nothing else; {lit}`verify_secoc_mac` accepts what it stored,
accepts in general exactly the truncated MAC of the same string, and does not see the
unused bytes of {lit}`data`. -/
theorem mac_authenticates_exactly_payload_and_freshness (cmac : CmacFunction)
    (order : ByteOrder) (p q : SecOCPDU) (hp : p.Fits) (hq : q.Fits)
    (frame frame' : Frame) :
    (p.authenticated order = q.authenticated order ↔
        p.dataLen = q.dataLen ∧ p.payload = q.payload ∧ p.freshness = q.freshness) ∧
      (∃ mac : Buffer 4,
        calculateSecocMac cmac order .success frame p = .ok { p with mac := mac } ∧
          mac.bytes = (cmac secocKey (p.authenticated order)).bytes.take 4 ∧
          verifySecocMac cmac order .success frame' { p with mac := mac } = .ok 1) ∧
      (∃ r, verifySecocMac cmac order .success frame p = .ok r ∧
        (r = 1 ↔ p.mac.bytes = (cmac secocKey (p.authenticated order)).bytes.take 4)) ∧
      (p.dataLen = q.dataLen → p.payload = q.payload → p.freshness = q.freshness →
        p.mac = q.mac →
          verifySecocMac cmac order .success frame p =
            verifySecocMac cmac order .success frame' q) := by
  have htagBytes :
      (p.tag cmac order).bytes = (cmac secocKey (p.authenticated order)).bytes.take 4 := by
    simp [SecOCPDU.tag, Buffer.slice]
  refine ⟨authenticated_inj order hp hq, ?_, ?_, ?_⟩
  · exact ⟨p.tag cmac order, calculateSecocMac_eq cmac order frame hp, htagBytes,
      verifySecocMac_of_tag cmac order frame' hp⟩
  · refine ⟨_, verifySecocMac_eq cmac order frame hp, ?_⟩
    rw [← htagBytes, ← Buffer.ext_iff]
    by_cases hmac : p.mac = p.tag cmac order <;> simp [hmac]
  · intro hlen hpayload hfresh hmac
    have hstring : p.authenticated order = q.authenticated order :=
      (authenticated_inj order hp hq).mpr ⟨hlen, hpayload, hfresh⟩
    have htag : p.tag cmac order = q.tag cmac order := by
      rw [SecOCPDU.tag, SecOCPDU.tag, hstring]
    rw [verifySecocMac_eq cmac order frame hp, verifySecocMac_eq cmac order frame' hq,
      hmac, htag]

/-- AES-CMAC under {lit}`secoc_key` on the strings of the PDUs that {lit}`secoc_sim.c`
builds on a little-endian host; zero on every other string. -/
def simulationCmac : CmacFunction := fun key message =>
  if key ≠ secocKey then Buffer.zero 16
  else if message = [0x12, 0x34, 0xE8, 0x03, 0x00, 0x00] then
    ⟨[0x4C, 0x42, 0xDE, 0x34, 0xC3, 0xC3, 0x5C, 0x90,
      0x6A, 0x3C, 0x65, 0x47, 0x15, 0xF4, 0x5D, 0xFD], rfl⟩
  else if message = [0x12, 0x34, 0xE9, 0x03, 0x00, 0x00] then
    ⟨[0xFB, 0xE3, 0x15, 0x0D, 0x72, 0x68, 0x33, 0xD1,
      0xAC, 0x56, 0x2F, 0x48, 0x6E, 0xAF, 0x84, 0x46], rfl⟩
  else if message = [0xFF, 0xFF, 0xE9, 0x03, 0x00, 0x00] then
    ⟨[0xD3, 0x72, 0x78, 0xE9, 0x92, 0x8B, 0x66, 0xE0,
      0x14, 0x3E, 0xC9, 0xA5, 0xE9, 0x0E, 0xF9, 0xCF], rfl⟩
  else Buffer.zero 16

/-- {lit}`tx_pdu.data` of the simulation. -/
def simulationData : Buffer 8 :=
  ⟨[0x12, 0x34, 0x00, 0x00, 0x00, 0x00, 0x00, 0x00], rfl⟩

/-- {lit}`tampered_pdu.data` of the simulation. -/
def tamperedData : Buffer 8 :=
  ⟨[0xFF, 0xFF, 0x00, 0x00, 0x00, 0x00, 0x00, 0x00], rfl⟩

/-- {lit}`tx_pdu` of the simulation after {lit}`calculate_secoc_mac`. -/
def simulationPdu : SecOCPDU where
  data := simulationData
  dataLen := 2
  freshness := 1000
  mac := ⟨[0x4C, 0x42, 0xDE, 0x34], rfl⟩

/-- {lit}`tampered_pdu` of the simulation. -/
def tamperedPdu : SecOCPDU where
  data := tamperedData
  dataLen := 2
  freshness := 1001
  mac := ⟨[0x4C, 0x42, 0xDE, 0x34], rfl⟩

/-- Local arrays that happen to be cleared on entry. -/
def clearFrame : Frame where
  authData := Buffer.zero 16
  fullMac := Buffer.zero 16

theorem mac_authenticates_simulation_pdus :
    (simulationPdu.authenticated .little ≠ tamperedPdu.authenticated .little) ∧
      (∃ mac : Buffer 4,
        calculateSecocMac simulationCmac .little .success clearFrame simulationPdu =
          .ok { simulationPdu with mac := mac } ∧
          mac.bytes = [0x4C, 0x42, 0xDE, 0x34]) := by
  have h := mac_authenticates_exactly_payload_and_freshness simulationCmac .little
    simulationPdu tamperedPdu (by decide) (by decide) clearFrame clearFrame
  refine ⟨fun heq => ?_, ?_⟩
  · exact absurd (h.1.mp heq).2.2 (by decide)
  · rcases h.2.1 with ⟨mac, hcalc, hbytes, _⟩
    refine ⟨mac, hcalc, ?_⟩
    rw [hbytes]
    decide

end AutomotiveSecurity.SecOC
