import AutomotiveSecurity.SecOC.Pdu

/-!
# Hostile PDUs and failing CMAC calls

{lit}`verify_secoc_mac` copies as many bytes as {lit}`data_len` says, and it compares
{lit}`expected_mac` whether or not the CMAC calls have succeeded.  This module says for
which PDUs its accesses stay inside the two arrays, and for which call failures a
result of 1 still means that the PDU carries its own tag.

Main results:

- Theorem {lit}`verifySecocMac_safe_iff`: the accesses are in bounds, and an oversized PDU
  is refused, exactly up to a {lit}`data_len` of 8.
- Theorem {lit}`verifySecocMac_fails_closed_iff`: the bytes on the stack, or the MAC of the
  empty string, decide what a failing call lets through.

Current gaps:

- A missing context counts as one more failing call here; in {lit}`SecOC.Simulation` it ends
  the program.
- What follows from failing calls of {lit}`calculate_secoc_mac` is left to
  {lit}`SecOC.FailingMacs`.
-/

namespace AutomotiveSecurity.SecOC

open HostInteger Memory OpenSSL

/-! ## Array accesses -/

/-- An access to {lit}`pdu->data` or to {lit}`auth_data`, by index. -/
inductive Access
  | readData (index : Nat)
  | writeAuthData (index : Nat)
  | readAuthData (index : Nat)
deriving DecidableEq, Repr

/-- The index lies in the declared array. -/
def Access.InBounds : Access → Prop
  | .readData index => index < 8
  | .writeAuthData index => index < 16
  | .readAuthData index => index < 16

instance : DecidablePred Access.InBounds
  | .readData index => inferInstanceAs (Decidable (index < 8))
  | .writeAuthData index => inferInstanceAs (Decidable (index < 16))
  | .readAuthData index => inferInstanceAs (Decidable (index < 16))

/-- The accesses of {lit}`verify_secoc_mac` in order: the copy of the payload, the copy of
the freshness value, and the bytes handed to {lit}`CMAC_Update`. -/
def verifyAccesses (pdu : SecOCPDU) : List Access :=
  (List.range pdu.dataLen.toNat).flatMap (fun i => [.readData i, .writeAuthData i]) ++
    (List.range 4).map (fun i => .writeAuthData (pdu.dataLen.toNat + i)) ++
    (List.range (pdu.dataLen.toNat + 4)).map .readAuthData

/-- The payload copy is the first to leave its array: {lit}`pdu->data` ends four bytes
before {lit}`auth_data` has no room left. -/
theorem verifyAccesses_inBounds_iff (pdu : SecOCPDU) :
    (∀ access ∈ verifyAccesses pdu, access.InBounds) ↔ pdu.Fits := by
  constructor
  · intro hbounds
    by_contra hlong
    have hread : Access.readData 8 ∈ verifyAccesses pdu := by
      have hlt : 8 < pdu.dataLen.toNat := Nat.lt_of_not_le hlong
      simp [verifyAccesses, hlt]
    exact absurd (hbounds _ hread) (by decide)
  · intro hfits access haccess
    have hlen : pdu.dataLen.toNat ≤ 8 := hfits
    simp only [verifyAccesses, List.mem_append, List.mem_flatMap, List.mem_map,
      List.mem_range, List.mem_cons, List.not_mem_nil, or_false] at haccess
    rcases haccess with (⟨i, hi, rfl | rfl⟩ | ⟨i, hi, rfl⟩) | ⟨i, hi, rfl⟩
    · show i < 8
      omega
    · show i < 16
      omega
    · show pdu.dataLen.toNat + i < 16
      omega
    · show i < 16
      omega

/-- A run of {lit}`verify_secoc_mac` has a result exactly if no access leaves its array. -/
theorem verifySecocMac_returns_iff (cmac : CmacFunction) (order : ByteOrder)
    (calls : CmacCalls) (frame : Frame) (pdu : SecOCPDU) :
    (∃ r, verifySecocMac cmac order calls frame pdu = .ok r) ↔
      ∀ access ∈ verifyAccesses pdu, access.InBounds := by
  rw [verifyAccesses_inBounds_iff]
  constructor
  · rintro ⟨r, hr⟩
    rcases bind_eq_ok.mp hr with ⟨_, hcopy, _⟩
    rcases bind_eq_ok.mp hcopy with ⟨_, hread, _⟩
    have hle := (load_eq_ok.mp hread).1
    rwa [pdu.data.size_eq] at hle
  · intro hfits
    exact ⟨_, verifySecocMac_of_calls cmac order calls frame hfits⟩

/-- For every PDU, byte order, pattern of CMAC failures and content of the stack:
the accesses of {lit}`verify_secoc_mac` stay inside {lit}`pdu->data` and {lit}`auth_data` and
an oversized PDU is refused exactly if {lit}`data_len` is at most 8.  There is no check of
{lit}`data_len` that could refuse a larger one.  The run itself shows the same, as it stops at
the first access outside an array: it comes to an end, and refuses what is oversized, exactly
if {lit}`data_len` is at most 8. -/
theorem verifySecocMac_safe_iff (cmac : CmacFunction) (order : ByteOrder)
    (calls : CmacCalls) (frame : Frame) (pdu : SecOCPDU) :
    (((∀ access ∈ verifyAccesses pdu, access.InBounds) ∧
        (∃ r, verifySecocMac cmac order calls frame pdu = .ok r) ∧
        (8 < pdu.dataLen.toNat → verifySecocMac cmac order calls frame pdu = .ok 0)) ↔
      pdu.dataLen.toNat ≤ 8) ∧
    ((∃ r, verifySecocMac cmac order calls frame pdu = .ok r ∧
        (8 < pdu.dataLen.toNat → r = 0)) ↔
      pdu.dataLen.toNat ≤ 8) := by
  have hreturns := (verifySecocMac_returns_iff cmac order calls frame pdu).trans
    (verifyAccesses_inBounds_iff pdu)
  constructor
  · constructor
    · intro hsafe
      exact (verifyAccesses_inBounds_iff pdu).mp hsafe.1
    · intro hfits
      refine ⟨(verifyAccesses_inBounds_iff pdu).mpr hfits, hreturns.mpr hfits, ?_⟩
      intro hlong
      exact absurd hfits (Nat.not_le_of_lt hlong)
  · constructor
    · rintro ⟨r, hr, -⟩
      exact hreturns.mp ⟨r, hr⟩
    · intro hfits
      rcases hreturns.mpr hfits with ⟨r, hr⟩
      exact ⟨r, hr, fun hlong => absurd hfits (Nat.not_le_of_lt hlong)⟩

/-- {lit}`tampered_pdu` of the simulation with a {lit}`data_len` of 9. -/
def oversizedPdu : SecOCPDU :=
  { tamperedPdu with dataLen := 9 }

/-- Already the ninth payload byte is read outside {lit}`pdu->data`, and nothing refuses
the PDU. -/
theorem oversized_pdu_leaves_payload :
    ¬(∀ access ∈ verifyAccesses oversizedPdu, access.InBounds) ∧
      verifySecocMac simulationCmac .little .success clearFrame oversizedPdu =
        .error (.read 8) := by
  constructor
  · rw [verifyAccesses_inBounds_iff]
    decide
  · rfl

/-! ## Failing calls -/

/-- For every PDU with a {lit}`data_len` of at most 8, every pattern of failures and every
content of the stack: {lit}`verify_secoc_mac` returns 1 only for a complete computation
over the authenticated string and a matching tag, exactly if no call fails, or the
transmitted MAC differs from the four bytes that are compared instead.  These are the
bytes {lit}`expected_mac` held on entry if no MAC was written, and the MAC of the empty
string if only {lit}`CMAC_Update` failed. -/
theorem verifySecocMac_fails_closed_iff (cmac : CmacFunction) (order : ByteOrder)
    (calls : CmacCalls) (frame : Frame) (pdu : SecOCPDU) (hfits : pdu.Fits) :
    (verifySecocMac cmac order calls frame pdu = .ok 1 →
        calls = .success ∧
          pdu.mac.bytes = (cmac secocKey (pdu.authenticated order)).bytes.take 4) ↔
      calls = .success ∨
        ((calls.ctxNew && calls.init && calls.final) = false ∧
          pdu.mac.bytes ≠ frame.fullMac.bytes.take 4) ∨
        ((calls.ctxNew && calls.init && calls.final) = true ∧ calls.update = false ∧
          pdu.mac.bytes ≠ (cmac secocKey []).bytes.take 4) := by
  have haccepts : verifySecocMac cmac order calls frame pdu = .ok 1 ↔
      pdu.mac.bytes = (pdu.expectedMac cmac order calls frame).bytes.take 4 := by
    rw [verifySecocMac_of_calls cmac order calls frame hfits]
    simp [SecOCPDU.storedMac, Buffer.ext_iff, Buffer.slice]
  rw [haccepts]
  by_cases hwritten : (calls.ctxNew && calls.init && calls.final) = true
  · cases hupdate : calls.update with
    | true =>
        -- No call fails, and the MAC that is compared is the right one.
        have hsuccess : calls = .success := by
          rcases calls with ⟨ctxNew, init, update, final⟩
          simp only [Bool.and_eq_true] at hwritten hupdate
          simp [CmacCalls.success, hwritten, hupdate]
        have hexpected : pdu.expectedMac cmac order calls frame =
            cmac secocKey (pdu.authenticated order) := by
          rw [SecOCPDU.expectedMac, if_pos hwritten, if_pos hupdate]
        rw [hexpected]
        exact iff_of_true (fun hmac => ⟨hsuccess, hmac⟩) (Or.inl hsuccess)
    | false =>
        have hfailed : calls ≠ .success := by
          intro hsuccess
          rw [hsuccess] at hupdate
          exact absurd hupdate (by decide)
        have hexpected : pdu.expectedMac cmac order calls frame = cmac secocKey [] := by
          rw [SecOCPDU.expectedMac, if_pos hwritten, hupdate]
          rfl
        simp [hexpected, hfailed, hwritten]
  · have hfailed : calls ≠ .success := by
      intro hsuccess
      rw [hsuccess] at hwritten
      exact hwritten rfl
    have hexpected : pdu.expectedMac cmac order calls frame = frame.fullMac := by
      rw [SecOCPDU.expectedMac, if_neg hwritten]
    have hunwritten : (calls.ctxNew && calls.init && calls.final) = false :=
      Bool.eq_false_iff.mpr hwritten
    simp [hexpected, hfailed, hunwritten]

/-- Local arrays on which the MAC computation for {lit}`tx_pdu` has left its result. -/
def staleFrame : Frame where
  authData := Buffer.zero 16
  fullMac := simulationCmac secocKey (simulationPdu.authenticated .little)

/-- The tampered PDU of the simulation, which carries the MAC of {lit}`tx_pdu`, is accepted
when {lit}`CMAC_Final` fails and that MAC is still on the stack. -/
theorem tampered_pdu_accepted_after_failed_final :
    verifySecocMac simulationCmac .little { CmacCalls.success with final := false }
        staleFrame tamperedPdu = .ok 1 ∧
      tamperedPdu.mac.bytes ≠
        (simulationCmac secocKey (tamperedPdu.authenticated .little)).bytes.take 4 := by
  constructor
  · rfl
  · decide

/-- The same failure is harmless when the stack holds zeros. -/
theorem tampered_pdu_refused_on_clear_stack :
    tamperedPdu.mac.bytes ≠ clearFrame.fullMac.bytes.take 4 ∧
      (verifySecocMac simulationCmac .little { CmacCalls.success with final := false }
          clearFrame tamperedPdu = .ok 1 →
        ({ CmacCalls.success with final := false } : CmacCalls) = .success ∧
          tamperedPdu.mac.bytes =
            (simulationCmac secocKey (tamperedPdu.authenticated .little)).bytes.take 4) := by
  have hstale : tamperedPdu.mac.bytes ≠ clearFrame.fullMac.bytes.take 4 := by decide
  refine ⟨hstale, ?_⟩
  exact (verifySecocMac_fails_closed_iff simulationCmac .little
    { CmacCalls.success with final := false } clearFrame tamperedPdu (by decide)).mpr
    (Or.inr (Or.inl ⟨rfl, hstale⟩))

end AutomotiveSecurity.SecOC
