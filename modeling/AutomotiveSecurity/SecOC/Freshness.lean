import AutomotiveSecurity.SecOC.Agreement

/-!
# Freshness: replays and gaps

The receiver compares the freshness value of a PDU with its counter in two places:
the acceptance test wants them equal, the replay test wants the former to be less.
Both compare 32-bit values that wrap around, and between the two tests lie the PDUs
that are ahead of the counter.

Main results:

- Theorem {lit}`replays_rejected_iff`: every accepted PDU is recognised as a replay
  exactly while the receive counter has not wrapped around.
- Theorem {lit}`first_pdu_accepted_again`: after {lit}`2 ^ 32` accepted PDUs it has, and
  the first of them is accepted once more.
- Theorem {lit}`accepted_iff_nothing_lost`: on a lossy channel a genuine PDU is accepted
  exactly when every PDU sent before it has been accepted.

Current gaps:

- No resynchronisation is modelled; the source has none.
-/

namespace AutomotiveSecurity.SecOC

open HostInteger Memory OpenSSL Prefix Runs

/-! ## Replays -/

section Replay

variable (cmac : CmacFunction) (order : ByteOrder)

/-- The acceptance test refuses the PDU and the replay test reports it. -/
def RejectedAsReplay (s : State) (pdu : SecOCPDU) : Prop :=
  (∀ frame, accepts cmac order s.rxCounter frame pdu = .ok false) ∧
    detectsReplay s.rxCounter pdu = true

variable {cmac order} {start : UInt32} {s t : State}

/-- A PDU that is behind the counter fails the one test and is reported by the other. -/
theorem rejectedAsReplay_iff {number : UInt32} {pdu : SecOCPDU}
    (hgenuine : Genuine cmac order number pdu) :
    RejectedAsReplay cmac order s pdu ↔ number < s.rxCounter := by
  unfold RejectedAsReplay detectsReplay
  constructor
  · intro h
    simpa [hgenuine.freshness_eq] using h.2
  · intro hbehind
    constructor
    · intro frame
      have hne : pdu.freshness ≠ s.rxCounter := by
        rw [hgenuine.freshness_eq]
        exact UInt32.ne_of_lt hbehind
      rw [accepts_eq s.rxCounter frame hgenuine.fits, decide_eq_false]
      exact fun hboth => hne hboth.1
    · simpa [hgenuine.freshness_eq] using hbehind

/-- Among the first {lit}`n` values of a counter, all are behind value number {lit}`n`
exactly if the counter does not wrap around on the way. -/
theorem counter_lt_iff (start : UInt32) (n : Nat) :
    (∀ i < n, counter start i < counter start n) ↔ start.toNat + n < 2 ^ 32 := by
  have hstart : start.toNat < 2 ^ 32 := start.toNat_lt
  constructor
  · intro hbehind
    by_contra hwrapped
    -- The largest 32-bit value has been counted, and nothing is above it.
    have hlast := hbehind (2 ^ 32 - 1 - start.toNat) (by omega)
    have hbound : (counter start n).toNat < 2 ^ 32 := (counter start n).toNat_lt
    rw [UInt32.lt_iff_toNat_lt, counter_toNat] at hlast
    omega
  · intro hsmall i hi
    rw [UInt32.lt_iff_toNat_lt, counter_toNat, counter_toNat, Nat.mod_eq_of_lt hsmall,
      Nat.mod_eq_of_lt (by omega)]
    omega

end Replay

/-- In every reachable state: each PDU accepted so far, delivered again, is refused by
the acceptance test and reported by the replay test, if and only if fewer than
{lit}`2 ^ 32` minus the start value have been accepted. -/
theorem replays_rejected_iff (cmac : CmacFunction) (order : ByteOrder) (start : UInt32)
    (events : List Event) (s : State)
    (hrun : run (step cmac order) (initial start) events = some s) :
    (∀ pdu ∈ s.accepted, RejectedAsReplay cmac order s pdu) ↔
      start.toNat + s.accepted.length < 2 ^ 32 := by
  have hwf := run_wellFormed hrun
  rw [← counter_lt_iff]
  constructor
  · intro hrejected i hi
    have hgenuine := hwf.accepted_numbered i _ (List.getElem?_eq_getElem hi)
    have hbehind := (rejectedAsReplay_iff hgenuine).mp
      (hrejected _ (List.getElem_mem hi))
    rwa [hwf.rx_eq] at hbehind
  · intro hbehind pdu hpdu
    rcases List.getElem?_of_mem hpdu with ⟨i, hi⟩
    have hilt := (List.getElem?_eq_some_iff.mp hi).1
    rw [rejectedAsReplay_iff (hwf.accepted_numbered i pdu hi), hwf.rx_eq]
    exact hbehind i hilt

theorem simulation_replay_rejected :
    RejectedAsReplay simulationCmac .little afterSimulationAttack simulationPdu :=
  (replays_rejected_iff simulationCmac .little 1000 simulationAttack afterSimulationAttack
    (by decide)).mpr (by decide) simulationPdu (by decide)

/-! ## The counter after a full turn -/

section Exchange

variable (cmac : CmacFunction) (order : ByteOrder) (data : Buffer 8) (dataLen : UInt8)
  (frame : Frame) (start : UInt32)

/-- The PDUs of {lit}`n` sends of the same data. -/
def exchangeLog (n : Nat) : List SecOCPDU :=
  (List.range n).map fun i => stampedPdu cmac order data dataLen (counter start i)

/-- The sender sends the same data {lit}`n` times, and each PDU arrives before the next. -/
def exchange : Nat → List Event
  | 0 => []
  | n + 1 =>
      exchange n ++
        [.send data dataLen frame,
         .receive (stampedPdu cmac order data dataLen (counter start n)) frame]

/-- The state after an exchange. -/
def afterExchange (n : Nat) : State where
  txCounter := counter start n
  rxCounter := counter start n
  inFlight := []
  sent := exchangeLog cmac order data dataLen start n
  accepted := exchangeLog cmac order data dataLen start n

variable {cmac order data dataLen frame start}

theorem exchangeLog_succ (n : Nat) :
    exchangeLog cmac order data dataLen start (n + 1) =
      exchangeLog cmac order data dataLen start n ++
        [stampedPdu cmac order data dataLen (counter start n)] := by
  simp [exchangeLog, List.range_succ]

/-- One more message of an exchange is sent and accepted. -/
theorem run_exchange_round (hfits : dataLen.toNat ≤ 8) (n : Nat) :
    run (step cmac order) (afterExchange cmac order data dataLen start n)
        [.send data dataLen frame,
         .receive (stampedPdu cmac order data dataLen (counter start n)) frame] =
      some (afterExchange cmac order data dataLen start (n + 1)) := by
  have hgenuine : Genuine cmac order (counter start n)
      (stampedPdu cmac order data dataLen (counter start n)) := stampedPdu_genuine hfits
  refine run_cons.mpr ⟨_, step_send.mpr ⟨hfits, rfl⟩, run_singleton.mpr ?_⟩
  refine (step_receive hgenuine.fits).mpr ⟨List.mem_cons_self, Or.inl ⟨rfl, rfl, ?_⟩⟩
  simp [afterExchange, exchangeLog_succ, counter_succ]

/-- In an exchange everything is accepted. -/
theorem run_exchange (hfits : dataLen.toNat ≤ 8) (n : Nat) :
    run (step cmac order) (initial start)
        (exchange cmac order data dataLen frame start n) =
      some (afterExchange cmac order data dataLen start n) := by
  induction n with
  | zero => simp [exchange, afterExchange, initial, exchangeLog]
  | succ n ih => exact run_append.mpr ⟨_, ih, run_exchange_round hfits n⟩

theorem counter_full_turn (start : UInt32) : counter start (2 ^ 32) = start := by
  have hstart : start.toNat < 2 ^ 32 := start.toNat_lt
  apply UInt32.toNat.inj
  rw [counter_toNat, Nat.add_mod_right, Nat.mod_eq_of_lt hstart]

variable (cmac order data dataLen start) in
/-- After an exchange that brings the counter back to its start, the first PDU passes
the acceptance test once more, and the replay test says nothing. -/
theorem first_pdu_accepted_again (hfits : dataLen.toNat ≤ 8) {n : Nat} (hn : 0 < n)
    (hturn : counter start n = start) :
    let s := afterExchange cmac order data dataLen start n
    stampedPdu cmac order data dataLen start ∈ s.accepted ∧
      (∀ frame', accepts cmac order s.rxCounter frame'
        (stampedPdu cmac order data dataLen start) = .ok true) ∧
      detectsReplay s.rxCounter (stampedPdu cmac order data dataLen start) = false := by
  intro s
  have hrx : s.rxCounter = start := hturn
  have hgenuine : Genuine cmac order start (stampedPdu cmac order data dataLen start) :=
    stampedPdu_genuine hfits
  refine ⟨?_, ?_, ?_⟩
  · exact List.mem_map.mpr ⟨0, List.mem_range.mpr hn, by rw [counter_zero]⟩
  · intro frame'
    rw [accepts_eq s.rxCounter frame' hgenuine.fits, decide_eq_true ⟨hrx.symm, rfl⟩]
  · simp [detectsReplay, hrx, stampedPdu, draftPdu]

end Exchange

/-- {lit}`tx_pdu` of the simulation, accepted first, is accepted again after
{lit}`2 ^ 32` PDUs. -/
theorem simulation_replay_accepted :
    ∃ events s,
      run (step simulationCmac .little) (initial 1000) events = some s ∧
        simulationPdu ∈ s.accepted ∧
          (∀ frame, accepts simulationCmac .little s.rxCounter frame simulationPdu =
            .ok true) ∧
          detectsReplay s.rxCounter simulationPdu = false := by
  have hpdu : stampedPdu simulationCmac .little simulationData 2 1000 = simulationPdu := by
    decide
  have hagain := first_pdu_accepted_again simulationCmac .little simulationData 2 1000
    (by decide) (Nat.two_pow_pos 32) (counter_full_turn 1000)
  rw [hpdu] at hagain
  exact ⟨exchange simulationCmac .little simulationData 2 clearFrame 1000 (2 ^ 32), _,
    run_exchange (by decide) (2 ^ 32), hagain⟩

/-! ## Gaps -/

/-- The channel may deliver and may lose, and does nothing else. -/
def Event.Lossy : Event → Prop
  | .send _ _ _ | .receive _ _ | .drop _ => True
  | .duplicate _ | .alter _ _ | .inject _ => False

instance : ∀ e : Event, Decidable e.Lossy
  | .send _ _ _ | .receive _ _ | .drop _ => .isTrue trivial
  | .duplicate _ | .alter _ _ | .inject _ => .isFalse id

section Loss

/-- What a lossy channel keeps: it holds sent PDUs only, they are accepted in sending
order, and none is there twice. -/
structure Conserved (s : State) : Prop where
  flight_sent : ∀ pdu ∈ s.inFlight, pdu ∈ s.sent
  accepted_prefix : s.accepted <+: s.sent
  count_le : s.inFlight.length + s.accepted.length ≤ s.sent.length

variable {cmac : CmacFunction} {order : ByteOrder} {start : UInt32} {s t : State}

/-- The receiver expects a PDU in flight exactly if it has accepted as many as were sent
before that one. -/
theorem expected_iff (hwf : WellFormed cmac order start s) (hcons : Conserved s)
    (hbound : s.sent.length ≤ 2 ^ 32) {pdu : SecOCPDU} (hmem : pdu ∈ s.inFlight) {i : Nat}
    (hi : s.sent[i]? = some pdu) :
    pdu.freshness = s.rxCounter ↔ i = s.accepted.length := by
  rw [(hwf.sent_numbered i pdu hi).freshness_eq, hwf.rx_eq]
  constructor
  · have hilt : i < s.sent.length := (List.getElem?_eq_some_iff.mp hi).1
    have hflight : 0 < s.inFlight.length := List.length_pos_of_mem hmem
    have hcount := hcons.count_le
    exact counter_inj (by omega) (by omega)
  · intro hlength
    rw [hlength]

theorem initial_conserved : Conserved (initial start) where
  flight_sent := by
    intro pdu h
    simp [initial] at h
  accepted_prefix := List.prefix_rfl
  count_le := Nat.le_refl _

/-- Losing a PDU in flight keeps the rest in order. -/
theorem Conserved.lose (hcons : Conserved s) (pdu : SecOCPDU) :
    Conserved { s with inFlight := s.inFlight.erase pdu } where
  flight_sent := fun q hq => hcons.flight_sent q (List.mem_of_mem_erase hq)
  accepted_prefix := hcons.accepted_prefix
  count_le := by
    have hlen : (s.inFlight.erase pdu).length ≤ s.inFlight.length :=
      List.length_erase_le
    have hcount := hcons.count_le
    show (s.inFlight.erase pdu).length + s.accepted.length ≤ s.sent.length
    omega

theorem step_conserved {e : Event} (hwf : WellFormed cmac order start s)
    (hcons : Conserved s) (hlossy : e.Lossy) (hbound : s.sent.length ≤ 2 ^ 32)
    (hstep : step cmac order s e = some t) : Conserved t := by
  cases e with
  | send data dataLen frame =>
      rcases step_send.mp hstep with ⟨-, rfl⟩
      constructor
      · intro q hq
        rcases List.mem_cons.mp hq with rfl | hq
        · exact List.mem_append_right _ List.mem_cons_self
        · exact List.mem_append_left _ (hcons.flight_sent q hq)
      · exact hcons.accepted_prefix.trans (List.prefix_append _ _)
      · have hcount := hcons.count_le
        simp only [List.length_cons, List.length_append, List.length_nil]
        omega
  | receive pdu frame =>
      have hmem := step_receive_mem hstep
      have hfits := hwf.flight_fits pdu hmem
      rcases (step_receive hfits).mp hstep with ⟨-, ⟨hfresh, -, rfl⟩ | ⟨-, rfl⟩⟩
      · rcases List.getElem?_of_mem (hcons.flight_sent pdu hmem) with ⟨i, hi⟩
        have hnext := (expected_iff hwf hcons hbound hmem hi).mp hfresh
        constructor
        · exact fun q hq => hcons.flight_sent q (List.mem_of_mem_erase hq)
        · exact prefix_concat_next hcons.accepted_prefix (hnext ▸ hi)
        · have hlen := List.length_erase_of_mem hmem
          have hflight : 0 < s.inFlight.length := List.length_pos_of_mem hmem
          have hcount := hcons.count_le
          simp only [List.length_append, List.length_cons, List.length_nil]
          omega
      · exact hcons.lose pdu
  | drop pdu =>
      exact (step_drop.mp hstep).2 ▸ hcons.lose pdu
  | duplicate pdu | alter pdu altered | inject pdu => exact absurd hlossy id

/-- On a lossy channel the conservation law holds while the counters have not wrapped. -/
theorem run_conserved {events : List Event}
    (hrun : run (step cmac order) (initial start) events = some s)
    (hlossy : ∀ e ∈ events, e.Lossy) (hbound : s.sent.length ≤ 2 ^ 32) : Conserved s := by
  have hpermitted : Along (step cmac order)
      (fun u e => e.Lossy ∧ u.sent.length < 2 ^ 32 + 1) (initial start) events :=
    (along_of_forall fun e he _ => hlossy e he).and
      (along_sent_bound hrun (Nat.lt_succ_of_le hbound))
  have hinv := run_invariant (I := fun u => WellFormed cmac order start u ∧ Conserved u)
    (fun u e v hinv hpermitted hstep =>
      ⟨step_wellFormed hinv.1 hstep,
        step_conserved hinv.1 hinv.2 hpermitted.1 (Nat.le_of_lt_succ hpermitted.2) hstep⟩)
    ⟨initial_wellFormed, initial_conserved⟩ hpermitted hrun
  exact hinv.2

end Loss

/-- On a channel that may lose PDUs: the PDU that was sent as number {lit}`i`, delivered
unmodified, is accepted if and only if every PDU sent before it has been accepted, and
whichever way it goes the receiver's state shows it. -/
theorem accepted_iff_nothing_lost (cmac : CmacFunction) (order : ByteOrder)
    (start : UInt32) (events : List Event) (s : State) (i : Nat) (pdu : SecOCPDU)
    (frame : Frame)
    (hrun : run (step cmac order) (initial start) events = some s)
    (hlossy : ∀ e ∈ events, e.Lossy) (hbound : s.sent.length ≤ 2 ^ 32)
    (hsent : s.sent[i]? = some pdu) (hmem : pdu ∈ s.inFlight) :
    ∃ accepted t,
      accepts cmac order s.rxCounter frame pdu = .ok accepted ∧
        step cmac order s (.receive pdu frame) = some t ∧
          (accepted = true ↔ s.accepted = s.sent.take i) ∧
            (accepted = true →
              t.accepted = s.sent.take (i + 1) ∧ t.rxCounter = s.rxCounter + 1) ∧
              (accepted = false →
                t.accepted = s.accepted ∧ t.rxCounter = s.rxCounter) := by
  have hwf := run_wellFormed hrun
  have hcons := run_conserved hrun hlossy hbound
  have hgenuine := hwf.sent_numbered i pdu hsent
  have hilt : i < s.sent.length := (List.getElem?_eq_some_iff.mp hsent).1
  have hexpected : pdu.freshness = s.rxCounter ↔ s.accepted = s.sent.take i :=
    (expected_iff hwf hcons hbound hmem hsent).trans
      (eq_take_iff hcons.accepted_prefix hilt).symm
  by_cases hfresh : pdu.freshness = s.rxCounter
  · have hhere := hexpected.mp hfresh
    refine ⟨true, _, ?_, (step_receive hgenuine.fits).mpr
      ⟨hmem, Or.inl ⟨hfresh, hgenuine.mac_eq, rfl⟩⟩, ?_, ?_, ?_⟩
    · rw [accepts_eq s.rxCounter frame hgenuine.fits,
        decide_eq_true ⟨hfresh, hgenuine.mac_eq⟩]
    · exact iff_of_true rfl hhere
    · intro _
      refine ⟨?_, rfl⟩
      show s.accepted ++ [pdu] = s.sent.take (i + 1)
      rw [List.take_add_one, hsent, ← hhere]
      rfl
    · intro hfalse
      contradiction
  · have hrefused : ¬(pdu.freshness = s.rxCounter ∧ pdu.mac = pdu.tag cmac order) :=
      fun hboth => hfresh hboth.1
    refine ⟨false, _, ?_, (step_receive hgenuine.fits).mpr
      ⟨hmem, Or.inr ⟨hrefused, rfl⟩⟩, ?_, ?_, ?_⟩
    · rw [accepts_eq s.rxCounter frame hgenuine.fits, decide_eq_false hrefused]
    · exact iff_of_false (by simp) fun htake => hfresh (hexpected.mpr htake)
    · intro htrue
      contradiction
    · intro _
      exact ⟨rfl, rfl⟩

/-- The first PDU is lost, the second is on its way. -/
def simulationLoss : List Event :=
  [.send simulationData 2 clearFrame,
   .drop simulationPdu,
   .send simulationData 2 clearFrame]

/-- The state after the loss. -/
def afterSimulationLoss : State where
  txCounter := 1002
  rxCounter := 1000
  inFlight := [secondPdu]
  sent := [simulationPdu, secondPdu]
  accepted := []

/-- The first PDU is on its way, nothing is lost. -/
def beforeSimulationLoss : State where
  txCounter := 1001
  rxCounter := 1000
  inFlight := [simulationPdu]
  sent := [simulationPdu]
  accepted := []

theorem first_pdu_accepted_second_refused :
    (∃ t, step simulationCmac .little beforeSimulationLoss (.receive simulationPdu clearFrame) =
        some t ∧ t.accepted = [simulationPdu] ∧ t.rxCounter = 1001) ∧
      ∃ t, step simulationCmac .little afterSimulationLoss (.receive secondPdu clearFrame) =
        some t ∧ t.accepted = [] ∧ t.rxCounter = 1000 := by
  constructor
  · rcases accepted_iff_nothing_lost simulationCmac .little 1000 (simulationLoss.take 1)
      beforeSimulationLoss 0 simulationPdu clearFrame (by decide) (by decide) (by decide) rfl
      (by decide) with ⟨accepted, t, -, hstep, hiff, haccepted, -⟩
    exact ⟨t, hstep, haccepted (hiff.mpr rfl)⟩
  · rcases accepted_iff_nothing_lost simulationCmac .little 1000 simulationLoss
      afterSimulationLoss 1 secondPdu clearFrame (by decide) (by decide) (by decide) rfl
      (by decide) with ⟨accepted, t, -, hstep, hiff, -, hrefused⟩
    have hnot : accepted = false :=
      Bool.eq_false_iff.mpr fun htrue => absurd (hiff.mp htrue) (by decide)
    exact ⟨t, hstep, hrefused hnot⟩

/-- The next PDU after a loss is genuine and ahead of the receive counter; delivered
unmodified it is not accepted, and it is no replay either. -/
theorem second_pdu_between_tests :
    run (step simulationCmac .little) (initial 1000) simulationLoss =
        some afterSimulationLoss ∧
      secondPdu ∈ afterSimulationLoss.inFlight ∧
        secondPdu.mac = secondPdu.tag simulationCmac .little ∧
          afterSimulationLoss.rxCounter < secondPdu.freshness ∧
            accepts simulationCmac .little afterSimulationLoss.rxCounter clearFrame
                secondPdu = .ok false ∧
              detectsReplay afterSimulationLoss.rxCounter secondPdu = false := by
  decide

end AutomotiveSecurity.SecOC
