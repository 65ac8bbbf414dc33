import AutomotiveSecurity.Foundations.Runs
import AutomotiveSecurity.SecOC.Pdu

/-!
# The SecOC sender, receiver and network

The transmit and receive code of {lit}`main` in {lit}`secoc_sim.c`, run by two ECUs
over a network that may drop, duplicate, delay, reorder, alter and inject PDUs.
Delay and reordering need no event of their own: any PDU in flight may be the next
one delivered.

The lists {lit}`sent` and {lit}`accepted` record the history of a run; the code does
not have them.

Main results:

- Theorems {lit}`stepUnder_send` and {lit}`stepUnder_receive`: everything a send and a
  delivery can do, whichever of their CMAC calls fail.
- Theorems {lit}`step_send` and {lit}`step_receive`: the same when no call fails.
- Theorem {lit}`run_wellFormed`: in every run without a failing call, both counters count
  their history modulo {lit}`2 ^ 32`, and every logged PDU carries its number and its own tag.

Current gaps:

- Runs with failing calls are left to {lit}`SecOC.FailingMacs`.
-/

namespace AutomotiveSecurity.SecOC

open HostInteger Memory OpenSSL Runs

/-! ## Transmit and receive code -/

/-- The acceptance test
{lit}`rx_pdu.freshness == rx_counter && verify_secoc_mac(&rx_pdu)`, with the outcome of its CMAC
calls. -/
def acceptsUnder (cmac : CmacFunction) (order : ByteOrder) (calls : CmacCalls)
    (rxCounter : UInt32) (frame : Frame) (pdu : SecOCPDU) : Except Fault Bool :=
  if pdu.freshness = rxCounter then do
    let verified ← withContext calls (verifySecocMac cmac order calls frame pdu)
    return verified ≠ 0
  else
    return false

/-- The acceptance test when no call fails. -/
def accepts (cmac : CmacFunction) (order : ByteOrder) (rxCounter : UInt32) (frame : Frame)
    (pdu : SecOCPDU) : Except Fault Bool :=
  acceptsUnder cmac order .success rxCounter frame pdu

/-- The replay test {lit}`replay_pdu.freshness < rx_counter`. -/
def detectsReplay (rxCounter : UInt32) (pdu : SecOCPDU) : Bool :=
  pdu.freshness < rxCounter

/-- {lit}`tx_pdu` before its MAC is calculated. -/
def draftPdu (data : Buffer 8) (dataLen : UInt8) (txCounter : UInt32) : SecOCPDU where
  data := data
  dataLen := dataLen
  freshness := txCounter
  mac := Buffer.zero 4

/-! ## States and events -/

/-- Both counters, the PDUs in flight, and the history of the run. -/
structure State where
  txCounter : UInt32
  rxCounter : UInt32
  inFlight : List SecOCPDU
  sent : List SecOCPDU
  accepted : List SecOCPDU
deriving DecidableEq, Repr

/-- The state before the first PDU; both counters start at the same value. -/
def initial (start : UInt32) : State where
  txCounter := start
  rxCounter := start
  inFlight := []
  sent := []
  accepted := []

/-- One action of the sender, the receiver or the network. -/
inductive Event
  | send (data : Buffer 8) (dataLen : UInt8) (frame : Frame)
  | receive (pdu : SecOCPDU) (frame : Frame)
  | drop (pdu : SecOCPDU)
  | duplicate (pdu : SecOCPDU)
  | alter (pdu altered : SecOCPDU)
  | inject (pdu : SecOCPDU)
deriving DecidableEq, Repr

/-- One step of the system with the outcome of its CMAC calls; the network makes none.  An ECU
without a context ends and takes no step.  The network moves PDUs with {lit}`data_len` at
most 8. -/
def stepUnder (cmac : CmacFunction) (order : ByteOrder) (s : State) :
    CmacCalls × Event → Option State
  | (calls, .send data dataLen frame) =>
      let draft := draftPdu data dataLen s.txCounter
      if draft.Fits then
        match withContext calls (calculateSecocMac cmac order calls frame draft) with
        | .ok pdu =>
            some
              { s with
                txCounter := s.txCounter + 1
                inFlight := pdu :: s.inFlight
                sent := s.sent ++ [pdu] }
        | .error _ => none
      else none
  | (calls, .receive pdu frame) =>
      if pdu ∈ s.inFlight then
        match acceptsUnder cmac order calls s.rxCounter frame pdu with
        | .ok true =>
            some
              { s with
                rxCounter := s.rxCounter + 1
                inFlight := s.inFlight.erase pdu
                accepted := s.accepted ++ [pdu] }
        | .ok false => some { s with inFlight := s.inFlight.erase pdu }
        | .error _ => none
      else none
  | (_, .drop pdu) =>
      if pdu ∈ s.inFlight then some { s with inFlight := s.inFlight.erase pdu } else none
  | (_, .duplicate pdu) =>
      if pdu ∈ s.inFlight then some { s with inFlight := pdu :: s.inFlight } else none
  | (_, .alter pdu altered) =>
      if pdu ∈ s.inFlight ∧ altered.Fits then
        some { s with inFlight := altered :: s.inFlight.erase pdu }
      else none
  | (_, .inject pdu) =>
      if pdu.Fits then some { s with inFlight := pdu :: s.inFlight } else none

/-- One step of the system in which no call fails. -/
def step (cmac : CmacFunction) (order : ByteOrder) (s : State) (e : Event) : Option State :=
  stepUnder cmac order s (.success, e)

/-! ## What one step does -/

/-- The PDU that a send step puts on the network. -/
def markedPdu (cmac : CmacFunction) (order : ByteOrder) (calls : CmacCalls) (frame : Frame)
    (data : Buffer 8) (dataLen : UInt8) (txCounter : UInt32) : SecOCPDU :=
  { draftPdu data dataLen txCounter with
    mac := (draftPdu data dataLen txCounter).storedMac cmac order calls frame }

section StepsUnder

variable {cmac : CmacFunction} {order : ByteOrder} {s t : State} {calls : CmacCalls}

/-- The acceptance test compares the freshness value, and four bytes with the MAC. -/
theorem acceptsUnder_eq (hnew : calls.ctxNew = true) (rxCounter : UInt32) (frame : Frame)
    {pdu : SecOCPDU} (hfits : pdu.Fits) :
    acceptsUnder cmac order calls rxCounter frame pdu =
      .ok (decide (pdu.freshness = rxCounter ∧
        pdu.mac = pdu.storedMac cmac order calls frame)) := by
  unfold acceptsUnder
  by_cases hfresh : pdu.freshness = rxCounter
  · rw [if_pos hfresh, withContext_of_new hnew,
      verifySecocMac_of_calls cmac order calls frame hfits]
    by_cases hmac : pdu.mac = pdu.storedMac cmac order calls frame
    · simp [hfresh, ← hmac, bind, Except.bind, pure, Except.pure]
    · simp [hfresh, hmac, bind, Except.bind, pure, Except.pure]
  · rw [if_neg hfresh]
    simp [hfresh, pure, Except.pure]

/-- A PDU with another freshness value is refused before its MAC is looked at. -/
theorem acceptsUnder_of_ne {rxCounter : UInt32} {pdu : SecOCPDU}
    (hfresh : pdu.freshness ≠ rxCounter) (frame : Frame) :
    acceptsUnder cmac order calls rxCounter frame pdu = .ok false :=
  if_neg hfresh

/-- Without a context a receiver that checks a MAC ends. -/
theorem acceptsUnder_of_null (hnull : calls.ctxNew = false) {rxCounter : UInt32}
    {pdu : SecOCPDU} (hfresh : pdu.freshness = rxCounter) (frame : Frame) :
    acceptsUnder cmac order calls rxCounter frame pdu = .error (.read 0) := by
  rw [acceptsUnder, if_pos hfresh, withContext_of_null hnull]
  rfl

/-- The whole effect of a send step. -/
theorem stepUnder_send {data : Buffer 8} {dataLen : UInt8} {frame : Frame} :
    stepUnder cmac order s (calls, .send data dataLen frame) = some t ↔
      calls.ctxNew = true ∧ (draftPdu data dataLen s.txCounter).Fits ∧
        t =
          { s with
            txCounter := s.txCounter + 1
            inFlight := markedPdu cmac order calls frame data dataLen s.txCounter :: s.inFlight
            sent := s.sent ++ [markedPdu cmac order calls frame data dataLen s.txCounter] } := by
  by_cases hfits : (draftPdu data dataLen s.txCounter).Fits
  · cases hnew : calls.ctxNew with
    | false => simp [stepUnder, withContext_of_null hnew, hfits]
    | true =>
        simp only [stepUnder, withContext_of_new hnew,
          calculateSecocMac_of_calls cmac order calls frame hfits, hfits, ↓reduceIte,
          Option.some.injEq, true_and]
        exact eq_comm
  · simp [stepUnder, hfits]

/-- Only a PDU in flight can be delivered. -/
theorem stepUnder_receive_mem {pdu : SecOCPDU} {frame : Frame}
    (hstep : stepUnder cmac order s (calls, .receive pdu frame) = some t) :
    pdu ∈ s.inFlight := by
  by_contra hmem
  simp [stepUnder, hmem] at hstep

/-- The whole effect of a delivery: the PDU leaves the network, and it is accepted if its
freshness is expected and its MAC is the one compared. -/
theorem stepUnder_receive_eq (hnew : calls.ctxNew = true) {pdu : SecOCPDU} {frame : Frame}
    (hfits : pdu.Fits) (hmem : pdu ∈ s.inFlight) :
    stepUnder cmac order s (calls, .receive pdu frame) =
      some
        (if pdu.freshness = s.rxCounter ∧ pdu.mac = pdu.storedMac cmac order calls frame then
          { s with
            rxCounter := s.rxCounter + 1
            inFlight := s.inFlight.erase pdu
            accepted := s.accepted ++ [pdu] }
        else { s with inFlight := s.inFlight.erase pdu }) := by
  simp only [stepUnder, if_pos hmem, acceptsUnder_eq hnew s.rxCounter frame hfits]
  by_cases hok : pdu.freshness = s.rxCounter ∧
      pdu.mac = pdu.storedMac cmac order calls frame
  · rw [decide_eq_true hok, if_pos hok]
  · rw [decide_eq_false hok, if_neg hok]

/-- The two outcomes of a delivery. -/
theorem stepUnder_receive {pdu : SecOCPDU} {frame : Frame} (hfits : pdu.Fits)
    (hstep : stepUnder cmac order s (calls, .receive pdu frame) = some t) :
    (acceptsUnder cmac order calls s.rxCounter frame pdu = .ok true ∧
        pdu.freshness = s.rxCounter ∧ pdu.mac = pdu.storedMac cmac order calls frame ∧
        t =
          { s with
            rxCounter := s.rxCounter + 1
            inFlight := s.inFlight.erase pdu
            accepted := s.accepted ++ [pdu] }) ∨
      (acceptsUnder cmac order calls s.rxCounter frame pdu = .ok false ∧
        t = { s with inFlight := s.inFlight.erase pdu }) := by
  simp only [stepUnder, if_pos (stepUnder_receive_mem hstep)] at hstep
  split at hstep
  · rename_i haccepts
    have hfresh : pdu.freshness = s.rxCounter := by
      by_contra hne
      rw [acceptsUnder_of_ne hne frame] at haccepts
      exact absurd (Except.ok.inj haccepts) (by decide)
    have hnew : calls.ctxNew = true := by
      rw [← Bool.not_eq_false]
      intro hnull
      rw [acceptsUnder_of_null hnull hfresh frame] at haccepts
      contradiction
    have hboth := haccepts
    rw [acceptsUnder_eq hnew s.rxCounter frame hfits, Except.ok.injEq,
      decide_eq_true_eq] at hboth
    exact Or.inl ⟨haccepts, hboth.1, hboth.2, (Option.some.inj hstep).symm⟩
  · rename_i hrefuses
    exact Or.inr ⟨hrefuses, (Option.some.inj hstep).symm⟩
  · contradiction

/-- Whatever the acceptance test says, a delivery leaves the sender alone and extends the
list of accepted PDUs by at most the delivered one. -/
theorem stepUnder_receive_frame {pdu : SecOCPDU} {frame : Frame}
    (hstep : stepUnder cmac order s (calls, .receive pdu frame) = some t) :
    t.txCounter = s.txCounter ∧ t.sent = s.sent ∧ s.accepted <+: t.accepted := by
  simp only [stepUnder, if_pos (stepUnder_receive_mem hstep)] at hstep
  split at hstep
  · cases hstep
    exact ⟨rfl, rfl, List.prefix_append _ _⟩
  · cases hstep
    exact ⟨rfl, rfl, List.prefix_rfl⟩
  · contradiction

/-- A step of the network alone touches only the PDUs in flight. -/
theorem stepUnder_network {e : Event}
    (hstep : stepUnder cmac order s (calls, e) = some t)
    (hsend : ∀ data dataLen frame, e ≠ .send data dataLen frame)
    (hreceive : ∀ pdu frame, e ≠ .receive pdu frame) :
    ∃ flight, t = { s with inFlight := flight } ∧
      ∀ pdu ∈ flight, pdu ∈ s.inFlight ∨ pdu.Fits := by
  cases e with
  | send data dataLen frame => exact absurd rfl (hsend data dataLen frame)
  | receive pdu frame => exact absurd rfl (hreceive pdu frame)
  | drop pdu =>
      simp only [stepUnder, Option.ite_none_right_eq_some, Option.some.injEq] at hstep
      refine ⟨s.inFlight.erase pdu, hstep.2.symm, ?_⟩
      intro q hq
      exact Or.inl (List.mem_of_mem_erase hq)
  | duplicate pdu =>
      simp only [stepUnder, Option.ite_none_right_eq_some, Option.some.injEq] at hstep
      refine ⟨pdu :: s.inFlight, hstep.2.symm, ?_⟩
      intro q hq
      rcases List.mem_cons.mp hq with rfl | hq
      · exact Or.inl hstep.1
      · exact Or.inl hq
  | alter pdu altered =>
      simp only [stepUnder, Option.ite_none_right_eq_some, Option.some.injEq] at hstep
      refine ⟨altered :: s.inFlight.erase pdu, hstep.2.symm, ?_⟩
      intro q hq
      rcases List.mem_cons.mp hq with rfl | hq
      · exact Or.inr hstep.1.2
      · exact Or.inl (List.mem_of_mem_erase hq)
  | inject pdu =>
      simp only [stepUnder, Option.ite_none_right_eq_some, Option.some.injEq] at hstep
      refine ⟨pdu :: s.inFlight, hstep.2.symm, ?_⟩
      intro q hq
      rcases List.mem_cons.mp hq with rfl | hq
      · exact Or.inr hstep.1
      · exact Or.inl hq

/-- No step forgets what was sent or accepted. -/
theorem stepUnder_history {e : CmacCalls × Event}
    (hstep : stepUnder cmac order s e = some t) :
    s.sent <+: t.sent ∧ s.accepted <+: t.accepted := by
  rcases e with ⟨calls, e⟩
  cases e with
  | send data dataLen frame =>
      rcases stepUnder_send.mp hstep with ⟨-, -, rfl⟩
      exact ⟨List.prefix_append _ _, List.prefix_rfl⟩
  | receive pdu frame =>
      have hframe := stepUnder_receive_frame hstep
      exact ⟨hframe.2.1 ▸ List.prefix_rfl, hframe.2.2⟩
  | drop pdu | duplicate pdu | alter pdu altered | inject pdu =>
      rcases stepUnder_network hstep (by simp) (by simp) with ⟨flight, rfl, -⟩
      exact ⟨List.prefix_rfl, List.prefix_rfl⟩

end StepsUnder

/-! ## Steps without a failing call -/

section Steps

variable {cmac : CmacFunction} {order : ByteOrder} {s t : State}

/-- The PDU that such a send step puts on the network. -/
def stampedPdu (cmac : CmacFunction) (order : ByteOrder) (data : Buffer 8)
    (dataLen : UInt8) (txCounter : UInt32) : SecOCPDU :=
  { draftPdu data dataLen txCounter with
    mac := (draftPdu data dataLen txCounter).tag cmac order }

/-- On a PDU that fits, the acceptance test is the conjunction of its two parts. -/
theorem accepts_eq (rxCounter : UInt32) (frame : Frame) {pdu : SecOCPDU}
    (hfits : pdu.Fits) :
    accepts cmac order rxCounter frame pdu =
      .ok (decide (pdu.freshness = rxCounter ∧ pdu.mac = pdu.tag cmac order)) :=
  acceptsUnder_eq rfl rxCounter frame hfits

/-- The whole effect of a send step. -/
theorem step_send {data : Buffer 8} {dataLen : UInt8} {frame : Frame} :
    step cmac order s (.send data dataLen frame) = some t ↔
      (draftPdu data dataLen s.txCounter).Fits ∧
        t =
          { s with
            txCounter := s.txCounter + 1
            inFlight := stampedPdu cmac order data dataLen s.txCounter :: s.inFlight
            sent := s.sent ++ [stampedPdu cmac order data dataLen s.txCounter] } :=
  stepUnder_send.trans (and_iff_right rfl)

/-- Only a PDU in flight can be delivered. -/
theorem step_receive_mem {pdu : SecOCPDU} {frame : Frame}
    (hstep : step cmac order s (.receive pdu frame) = some t) : pdu ∈ s.inFlight :=
  stepUnder_receive_mem hstep

/-- The whole effect of a delivery: the PDU leaves the network, and it is accepted
exactly when its freshness is expected and its tag is right. -/
theorem step_receive {pdu : SecOCPDU} {frame : Frame} (hfits : pdu.Fits) :
    step cmac order s (.receive pdu frame) = some t ↔
      pdu ∈ s.inFlight ∧
        ((pdu.freshness = s.rxCounter ∧ pdu.mac = pdu.tag cmac order ∧
            t =
              { s with
                rxCounter := s.rxCounter + 1
                inFlight := s.inFlight.erase pdu
                accepted := s.accepted ++ [pdu] }) ∨
          (¬(pdu.freshness = s.rxCounter ∧ pdu.mac = pdu.tag cmac order) ∧
            t = { s with inFlight := s.inFlight.erase pdu })) := by
  by_cases hmem : pdu ∈ s.inFlight
  · rw [step, stepUnder_receive_eq rfl hfits hmem, storedMac_success]
    by_cases hok : pdu.freshness = s.rxCounter ∧ pdu.mac = pdu.tag cmac order
    · simp only [hok, and_self, ↓reduceIte, Option.some.injEq, true_and, not_true_eq_false,
        false_and, or_false]
      simpa [hmem] using eq_comm
    · have hnot : ∀ u : State, ¬(pdu.freshness = s.rxCounter ∧
          pdu.mac = pdu.tag cmac order ∧ t = u) :=
        fun u h => hok ⟨h.1, h.2.1⟩
      simp only [hok, ↓reduceIte, Option.some.injEq, not_false_eq_true, true_and, hnot,
        false_or]
      simpa [hmem] using eq_comm
  · simp [step, stepUnder, hmem]

/-- A step of the network alone touches only the PDUs in flight. -/
theorem step_network {e : Event} (hstep : step cmac order s e = some t)
    (hsend : ∀ data dataLen frame, e ≠ .send data dataLen frame)
    (hreceive : ∀ pdu frame, e ≠ .receive pdu frame) :
    ∃ flight, t = { s with inFlight := flight } ∧
      ∀ pdu ∈ flight, pdu ∈ s.inFlight ∨ pdu.Fits :=
  stepUnder_network hstep hsend hreceive

/-- Dropping takes one copy of a PDU off the network. -/
theorem step_drop {pdu : SecOCPDU} :
    step cmac order s (.drop pdu) = some t ↔
      pdu ∈ s.inFlight ∧ { s with inFlight := s.inFlight.erase pdu } = t := by
  simp only [step, stepUnder, Option.ite_none_right_eq_some, Option.some.injEq]

/-- No step forgets what was sent or accepted. -/
theorem step_history {e : Event} (hstep : step cmac order s e = some t) :
    s.sent <+: t.sent ∧ s.accepted <+: t.accepted :=
  stepUnder_history hstep

end Steps

/-! ## Wrapping counters -/

/-- The value of a counter after {lit}`n` increments. -/
def counter (start : UInt32) (n : Nat) : UInt32 :=
  start + UInt32.ofNat n

@[simp]
theorem counter_zero (start : UInt32) : counter start 0 = start := by
  simp [counter]

theorem counter_toNat (start : UInt32) (n : Nat) :
    (counter start n).toNat = (start.toNat + n) % 2 ^ 32 := by
  rw [counter, UInt32.toNat_add, UInt32.toNat_ofNat', Nat.add_mod_mod]

theorem counter_succ (start : UInt32) (n : Nat) :
    counter start (n + 1) = counter start n + 1 := by
  apply UInt32.toNat.inj
  rw [counter_toNat, UInt32.toNat_add, counter_toNat, UInt32.toNat_one, Nat.mod_add_mod,
    Nat.add_assoc]

/-- Fewer than {lit}`2 ^ 32` increments apart, two values of one counter differ. -/
theorem counter_inj {start : UInt32} {i j : Nat} (hi : i < 2 ^ 32) (hj : j < 2 ^ 32)
    (h : counter start i = counter start j) : i = j := by
  have hstart : start.toNat < 2 ^ 32 := start.toNat_lt
  have hmod := congrArg UInt32.toNat h
  rw [counter_toNat, counter_toNat] at hmod
  omega

/-! ## The invariant of all runs -/

section Invariant

variable (cmac : CmacFunction) (order : ByteOrder)

/-- A PDU that fits, carries the given freshness value and its own tag. -/
structure Genuine (number : UInt32) (pdu : SecOCPDU) : Prop where
  fits : pdu.Fits
  freshness_eq : pdu.freshness = number
  mac_eq : pdu.mac = pdu.tag cmac order

/-- The PDUs of a log carry consecutive values of one counter. -/
def Numbered (start : UInt32) (log : List SecOCPDU) : Prop :=
  ∀ i pdu, log[i]? = some pdu → Genuine cmac order (counter start i) pdu

/-- Both counters count their log, and the network holds only PDUs that fit. -/
structure WellFormed (start : UInt32) (s : State) : Prop where
  tx_eq : s.txCounter = counter start s.sent.length
  rx_eq : s.rxCounter = counter start s.accepted.length
  sent_numbered : Numbered cmac order start s.sent
  accepted_numbered : Numbered cmac order start s.accepted
  flight_fits : ∀ pdu ∈ s.inFlight, pdu.Fits

variable {cmac order} {start : UInt32} {s t : State}

theorem Numbered.concat {log : List SecOCPDU} {pdu : SecOCPDU}
    (hlog : Numbered cmac order start log)
    (hpdu : Genuine cmac order (counter start log.length) pdu) :
    Numbered cmac order start (log ++ [pdu]) := by
  intro i q hq
  rcases Nat.lt_trichotomy i log.length with hlt | rfl | hgt
  · rw [List.getElem?_append_left hlt] at hq
    exact hlog i q hq
  · rw [List.getElem?_append_right (Nat.le_refl _), Nat.sub_self] at hq
    simp only [List.getElem?_cons_zero, Option.some.injEq] at hq
    exact hq ▸ hpdu
  · rw [List.getElem?_eq_none (by simp; omega)] at hq
    contradiction

theorem stampedPdu_genuine {data : Buffer 8} {dataLen : UInt8} {txCounter : UInt32}
    (hfits : (draftPdu data dataLen txCounter).Fits) :
    Genuine cmac order txCounter (stampedPdu cmac order data dataLen txCounter) where
  fits := hfits
  freshness_eq := rfl
  mac_eq := rfl

theorem initial_wellFormed : WellFormed cmac order start (initial start) where
  tx_eq := by simp [initial]
  rx_eq := by simp [initial]
  sent_numbered := by
    intro i pdu h
    simp [initial] at h
  accepted_numbered := by
    intro i pdu h
    simp [initial] at h
  flight_fits := by
    intro pdu h
    simp [initial] at h

/-- Every step, whoever takes it, preserves the invariant. -/
theorem step_wellFormed {e : Event} (hwf : WellFormed cmac order start s)
    (hstep : step cmac order s e = some t) : WellFormed cmac order start t := by
  cases e with
  | send data dataLen frame =>
      rcases step_send.mp hstep with ⟨hfits, rfl⟩
      have hgenuine : Genuine cmac order s.txCounter
          (stampedPdu cmac order data dataLen s.txCounter) := stampedPdu_genuine hfits
      constructor
      · simp [hwf.tx_eq, counter_succ]
      · exact hwf.rx_eq
      · exact hwf.sent_numbered.concat (hwf.tx_eq ▸ hgenuine)
      · exact hwf.accepted_numbered
      · intro q hq
        rcases List.mem_cons.mp hq with rfl | hq
        · exact hgenuine.fits
        · exact hwf.flight_fits q hq
  | receive pdu frame =>
      have hmem := step_receive_mem hstep
      have hfits := hwf.flight_fits pdu hmem
      have hflight : ∀ q ∈ s.inFlight.erase pdu, q.Fits :=
        fun q hq => hwf.flight_fits q (List.mem_of_mem_erase hq)
      rcases (step_receive hfits).mp hstep with ⟨-, ⟨hfresh, hmac, rfl⟩ | ⟨-, rfl⟩⟩
      · have hgenuine : Genuine cmac order (counter start s.accepted.length) pdu :=
          ⟨hfits, hfresh.trans hwf.rx_eq, hmac⟩
        constructor
        · exact hwf.tx_eq
        · simp [hwf.rx_eq, counter_succ]
        · exact hwf.sent_numbered
        · exact hwf.accepted_numbered.concat hgenuine
        · exact hflight
      · exact ⟨hwf.tx_eq, hwf.rx_eq, hwf.sent_numbered, hwf.accepted_numbered, hflight⟩
  | drop pdu | duplicate pdu | alter pdu altered | inject pdu =>
      rcases step_network hstep (by simp) (by simp) with ⟨flight, rfl, hflight⟩
      refine ⟨hwf.tx_eq, hwf.rx_eq, hwf.sent_numbered, hwf.accepted_numbered, ?_⟩
      intro q hq
      rcases hflight q hq with hold | hnew
      · exact hwf.flight_fits q hold
      · exact hnew

/-- The invariant holds in every reachable state. -/
theorem run_wellFormed {events : List Event}
    (hrun : run (step cmac order) (initial start) events = some s) :
    WellFormed cmac order start s :=
  run_invariant (P := fun _ _ => True) (fun _ _ _ hwf _ hstep => step_wellFormed hwf hstep)
    initial_wellFormed (along_of_forall fun _ _ _ => trivial) hrun

/-- In every reachable state any PDU in flight can be delivered: the receiver never
leaves its arrays. -/
theorem delivery_enabled (hwf : WellFormed cmac order start s) {pdu : SecOCPDU}
    (hmem : pdu ∈ s.inFlight) (frame : Frame) :
    ∃ t, step cmac order s (.receive pdu frame) = some t := by
  by_cases hok : pdu.freshness = s.rxCounter ∧ pdu.mac = pdu.tag cmac order
  · exact ⟨_, (step_receive (hwf.flight_fits pdu hmem)).mpr
      ⟨hmem, Or.inl ⟨hok.1, hok.2, rfl⟩⟩⟩
  · exact ⟨_, (step_receive (hwf.flight_fits pdu hmem)).mpr ⟨hmem, Or.inr ⟨hok, rfl⟩⟩⟩

/-- No run forgets what was sent or accepted. -/
theorem run_history {events : List Event} (hrun : run (step cmac order) s events = some t) :
    s.sent <+: t.sent ∧ s.accepted <+: t.accepted :=
  run_invariant (I := fun u => s.sent <+: u.sent ∧ s.accepted <+: u.accepted)
    (P := fun _ _ => True)
    (fun _ _ _ hprev _ hstep =>
      ⟨hprev.1.trans (step_history hstep).1, hprev.2.trans (step_history hstep).2⟩)
    ⟨List.prefix_rfl, List.prefix_rfl⟩ (along_of_forall fun _ _ _ => trivial) hrun

/-- The number of sends only grows, so a bound at the end of a run holds throughout. -/
theorem along_sent_bound {events : List Event} {n : Nat}
    (hrun : run (step cmac order) s events = some t) (hbound : t.sent.length < n) :
    Along (step cmac order) (fun u _ => u.sent.length < n) s events := by
  have hback : ∀ u e v, step cmac order u e = some v →
      v.sent.length < n → u.sent.length < n := by
    intro u e v hstep hlt
    exact lt_of_le_of_lt (step_history hstep).1.length_le hlt
  exact (along_of_final hback hrun hbound).1

end Invariant

end AutomotiveSecurity.SecOC
