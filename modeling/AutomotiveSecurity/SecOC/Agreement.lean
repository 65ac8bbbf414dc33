import AutomotiveSecurity.Foundations.OrderedChannel
import AutomotiveSecurity.SecOC.Simulation

/-!
# Agreement of the SecOC sender and receiver

Against a network that cannot forge MACs, and while the 32-bit counters have not run
through all their values, the system refines an ordered channel: whatever the
network does, the receiver accepts the sender's messages in sending order, each at
most once.  If in addition every PDU is delivered at least once, in sending order,
the receiver accepts all of them, whatever else is delivered in between.

Main results:

- Theorem {lit}`simulation_refines_channel`: every step is a step of the ordered
  channel, or none.
- Theorem {lit}`accepted_payloads_prefix_of_sent`: agreement in every run.
- Theorem {lit}`genuine_deliveries_accepted`: injected traffic cannot make the
  receiver refuse a genuine message.

Current gaps:

- Unforgeability is an assumption on the deliveries of a run; no probability of a
  lucky guess of the 32-bit tag is computed.
-/

namespace AutomotiveSecurity.SecOC

open HostInteger Memory OpenSSL Runs OrderedChannel

/-! ## What the receiver reads of a PDU -/

/-- The payload as the receiver sees it: {lit}`data_len` and the bytes that count. -/
def SecOCPDU.delivery (pdu : SecOCPDU) : UInt8 × List UInt8 :=
  (pdu.dataLen, pdu.payload)

/-- The whole PDU except the unused bytes of {lit}`data`. -/
def SecOCPDU.content (pdu : SecOCPDU) : (UInt8 × List UInt8) × UInt32 × Buffer 4 :=
  (pdu.delivery, pdu.freshness, pdu.mac)

section Refinement

variable (cmac : CmacFunction) (order : ByteOrder)

/-- The strings the sender has called {lit}`calculate_secoc_mac` on. -/
def State.maced (s : State) : List (List UInt8) :=
  s.sent.map (SecOCPDU.authenticated order)

/-- A delivery with a valid MAC is about a string the sender has MACed before. -/
def Unforged (s : State) : Event → Prop
  | .receive pdu frame =>
      verifySecocMac cmac order .success frame pdu = .ok 1 →
        pdu.authenticated order ∈ s.maced order
  | _ => True

instance (s : State) : ∀ e, Decidable (Unforged cmac order s e)
  | .receive pdu frame =>
      inferInstanceAs (Decidable (verifySecocMac cmac order .success frame pdu = .ok 1 →
        pdu.authenticated order ∈ s.maced order))
  | .send _ _ _ | .drop _ | .duplicate _ | .alter _ _ | .inject _ => .isTrue trivial

/-- The abstraction: the channel's history is the history of the system. -/
structure Refines (start : UInt32) (s : State) (c : Channel
    ((UInt8 × List UInt8) × UInt32 × Buffer 4)) : Prop where
  wellFormed : WellFormed cmac order start s
  sent_eq : c.sent = s.sent.map SecOCPDU.content
  delivered_eq : c.delivered = s.accepted.map SecOCPDU.content

variable {cmac order} {start : UInt32} {s t : State}

/-- Two PDUs that carry their own tags and authenticate the same string agree in
everything the receiver reads. -/
theorem content_eq_of_authenticated {p q : SecOCPDU} {m n : UInt32}
    (hp : Genuine cmac order m p) (hq : Genuine cmac order n q)
    (h : p.authenticated order = q.authenticated order) : p.content = q.content := by
  have hparts := (authenticated_inj order hp.fits hq.fits).mp h
  have htag : p.tag cmac order = q.tag cmac order := by
    rw [SecOCPDU.tag, SecOCPDU.tag, h]
  have hmac : p.mac = q.mac := by
    rw [hp.mac_eq, hq.mac_eq, htag]
  simp only [SecOCPDU.content, SecOCPDU.delivery, hparts.1, hparts.2.1, hparts.2.2, hmac]

/-- A PDU that passes the acceptance test is the next message the sender has not yet
seen accepted. -/
theorem accepted_is_next {c : Channel ((UInt8 × List UInt8) × UInt32 × Buffer 4)}
    (href : Refines cmac order start s c) (hbound : s.sent.length < 2 ^ 32)
    {pdu : SecOCPDU} {frame : Frame} (hfits : pdu.Fits)
    (hunf : Unforged cmac order s (.receive pdu frame))
    (hfresh : pdu.freshness = s.rxCounter) (hmac : pdu.mac = pdu.tag cmac order) :
    c.sent[c.delivered.length]? = some pdu.content := by
  have hverify : verifySecocMac cmac order .success frame pdu = .ok 1 := by
    rw [verifySecocMac_eq cmac order frame hfits, if_pos hmac]
  -- The MAC assumption yields a sent PDU `q` with the same authenticated string.
  rcases List.mem_map.mp (hunf hverify) with ⟨q, hq, hstring⟩
  rcases List.getElem?_of_mem hq with ⟨i, hi⟩
  have hgenuine := href.wellFormed.sent_numbered i q hi
  have hpdu : Genuine cmac order s.rxCounter pdu := ⟨hfits, hfresh, hmac⟩
  have hcontent : pdu.content = q.content :=
    content_eq_of_authenticated hpdu hgenuine hstring.symm
  -- Both counters are below 2 ^ 32 increments, so equal freshness means equal position.
  have hilt : i < s.sent.length := (List.getElem?_eq_some_iff.mp hi).1
  have hcount : s.accepted.length ≤ s.sent.length := by
    simpa [href.delivered_eq, href.sent_eq] using c.in_order.length_le
  have hsame : counter start i = counter start s.accepted.length := by
    have hfreshness : pdu.freshness = q.freshness := congrArg (fun x => x.2.1) hcontent
    rw [← hgenuine.freshness_eq, ← hfreshness, hfresh, href.wellFormed.rx_eq]
  have hindex : i = s.accepted.length :=
    counter_inj (by omega) (by omega) hsame
  rw [href.sent_eq, href.delivered_eq, List.length_map, ← hindex, List.getElem?_map, hi,
    hcontent]
  rfl

/-- Every step of the system is a step of the ordered channel, or leaves it alone. -/
theorem simulation_refines_channel :
    Simulation (step cmac order)
      (fun s e => Unforged cmac order s e ∧ s.sent.length < 2 ^ 32)
      (OrderedChannel.step (μ := (UInt8 × List UInt8) × UInt32 × Buffer 4))
      (Refines cmac order start) where
  match_step := by
    intro s e t c href hpermitted hstep
    have hwf := step_wellFormed href.wellFormed hstep
    cases e with
    | send data dataLen frame =>
        rcases step_send.mp hstep with ⟨-, rfl⟩
        refine ⟨[.send (stampedPdu cmac order data dataLen s.txCounter).content], _,
          send_run c _, hwf, ?_, href.delivered_eq⟩
        simp [Channel.send, href.sent_eq]
    | receive pdu frame =>
        have hfits := href.wellFormed.flight_fits pdu (step_receive_mem hstep)
        rcases (step_receive hfits).mp hstep with ⟨-, ⟨hfresh, hmac, rfl⟩ | ⟨-, rfl⟩⟩
        · have hnext := accepted_is_next href hpermitted.2 hfits hpermitted.1 hfresh hmac
          refine ⟨[.deliver], _, deliver_run c hnext, hwf, href.sent_eq, ?_⟩
          simp [Channel.deliver, href.delivered_eq]
        · exact ⟨[], c, run_nil, hwf, href.sent_eq, href.delivered_eq⟩
    | drop pdu | duplicate pdu | alter pdu altered | inject pdu =>
        rcases step_network hstep (by simp) (by simp) with ⟨flight, rfl, -⟩
        exact ⟨[], c, run_nil, hwf, href.sent_eq, href.delivered_eq⟩

theorem initial_refines : Refines cmac order start (initial start) Channel.empty where
  wellFormed := initial_wellFormed
  sent_eq := rfl
  delivered_eq := rfl

/-- Every state of an unforged run in which the counters do not wrap around refines a
state of the ordered channel. -/
theorem run_refines_channel {events : List Event}
    (hrun : run (step cmac order) (initial start) events = some s)
    (hunf : Along (step cmac order) (Unforged cmac order) (initial start) events)
    (hbound : s.sent.length < 2 ^ 32) :
    ∃ c, Refines cmac order start s c := by
  rcases simulation_refines_channel.run initial_refines
    (hunf.and (along_sent_bound hrun hbound)) hrun with ⟨_, c, -, href⟩
  exact ⟨c, href⟩

/-- What was accepted is a prefix of what was sent, unused bytes aside. -/
theorem accepted_content_prefix {events : List Event}
    (hrun : run (step cmac order) (initial start) events = some s)
    (hunf : Along (step cmac order) (Unforged cmac order) (initial start) events)
    (hbound : s.sent.length < 2 ^ 32) :
    s.accepted.map SecOCPDU.content <+: s.sent.map SecOCPDU.content := by
  rcases run_refines_channel hrun hunf hbound with ⟨c, href⟩
  rw [← href.sent_eq, ← href.delivered_eq]
  exact c.in_order

end Refinement

/-! ## Agreement -/

/-- In every unforged run with fewer than {lit}`2 ^ 32` sends, the accepted payloads are
a prefix of the payloads sent. -/
theorem accepted_payloads_prefix_of_sent (cmac : CmacFunction) (order : ByteOrder)
    (start : UInt32) (events : List Event) (s : State)
    (hrun : run (step cmac order) (initial start) events = some s)
    (hunf : Along (step cmac order) (Unforged cmac order) (initial start) events)
    (hbound : s.sent.length < 2 ^ 32) :
    s.accepted.map SecOCPDU.delivery <+: s.sent.map SecOCPDU.delivery := by
  have hcontent := accepted_content_prefix hrun hunf hbound
  have hpayloads := hcontent.map Prod.fst
  rw [List.map_map, List.map_map] at hpayloads
  exact hpayloads

/-- The scenarios of {lit}`secoc_sim.c` as one attack: a tampered PDU arrives before the
genuine one, and the genuine one arrives twice. -/
def simulationAttack : List Event :=
  [.send simulationData 2 clearFrame,
   .inject tamperedPdu,
   .receive tamperedPdu clearFrame,
   .duplicate simulationPdu,
   .receive simulationPdu clearFrame,
   .receive simulationPdu clearFrame]

/-- The state after the attack. -/
def afterSimulationAttack : State where
  txCounter := 1001
  rxCounter := 1001
  inFlight := []
  sent := [simulationPdu]
  accepted := [simulationPdu]

theorem accepted_payloads_of_simulationAttack :
    run (step simulationCmac .little) (initial 1000) simulationAttack =
        some afterSimulationAttack ∧
      afterSimulationAttack.accepted.map SecOCPDU.delivery <+:
        afterSimulationAttack.sent.map SecOCPDU.delivery :=
  ⟨by decide, accepted_payloads_prefix_of_sent simulationCmac .little 1000 simulationAttack
    afterSimulationAttack (by decide) (by decide) (by decide)⟩

/-! ## Genuine messages are never refused -/

section Delivery

variable (cmac : CmacFunction) (order : ByteOrder)

/-- Position {lit}`k` of the run delivers the PDU that was sent as number {lit}`i`,
unmodified and after it was sent. -/
def GenuineDelivery (start : UInt32) (events : List Event) (i k : Nat) : Prop :=
  ∃ s pdu frame,
    run (step cmac order) (initial start) (events.take k) = some s ∧
      s.sent[i]? = some pdu ∧ events[k]? = some (.receive pdu frame)

variable {cmac order} {start : UInt32} {s t : State}

/-- Fewer than {lit}`2 ^ 32` sent PDUs are pairwise different. -/
theorem sent_content_nodup (hwf : WellFormed cmac order start s)
    (hbound : s.sent.length < 2 ^ 32) : (s.sent.map SecOCPDU.content).Nodup := by
  have hfresh : (s.sent.map SecOCPDU.freshness).Nodup := by
    rw [List.Nodup, List.pairwise_map, List.pairwise_iff_getElem]
    intro i j hi hj hij heq
    have hgi := hwf.sent_numbered i _ (List.getElem?_eq_getElem hi)
    have hgj := hwf.sent_numbered j _ (List.getElem?_eq_getElem hj)
    rw [hgi.freshness_eq, hgj.freshness_eq] at heq
    have hsame : i = j := counter_inj (by omega) (by omega) heq
    omega
  refine List.Nodup.of_map (fun x => x.2.1) ?_
  rw [List.map_map]
  exact hfresh

/-- Delivering the genuine PDU that the receiver expects next makes it accept. -/
theorem genuine_accepted (hwf : WellFormed cmac order start s) {pdu : SecOCPDU}
    {frame : Frame} (hsent : s.sent[s.accepted.length]? = some pdu)
    (hstep : step cmac order s (.receive pdu frame) = some t) :
    t.accepted = s.accepted ++ [pdu] := by
  have hgenuine := hwf.sent_numbered s.accepted.length pdu hsent
  have hfresh : pdu.freshness = s.rxCounter := by
    rw [hgenuine.freshness_eq, hwf.rx_eq]
  rcases (step_receive hgenuine.fits).mp hstep with ⟨-, ⟨-, -, rfl⟩ | ⟨hnot, -⟩⟩
  · rfl
  · exact absurd ⟨hfresh, hgenuine.mac_eq⟩ hnot

/-- If everything before number {lit}`i` has been accepted, then after a genuine delivery
of number {lit}`i` that one has been accepted too. -/
theorem genuineDelivery_accepted_length {events : List Event} {i k : Nat}
    (hrun : run (step cmac order) (initial start) events = some t)
    (hdelivery : GenuineDelivery cmac order start events i k)
    (hbefore : ∀ s, run (step cmac order) (initial start) (events.take k) = some s →
      i ≤ s.accepted.length) :
    ∃ u, run (step cmac order) (initial start) (events.take (k + 1)) = some u ∧
      i < u.accepted.length := by
  rcases hdelivery with ⟨s, pdu, frame, hs, hsent, hevent⟩
  rcases run_take hrun (k + 1) with ⟨u, hu, -⟩
  have hstep : step cmac order s (.receive pdu frame) = some u := by
    rcases (run_take_succ hevent).mp hu with ⟨s', hs', hstep⟩
    have hsame : s' = s := Option.some.inj (hs'.symm.trans hs)
    exact hsame ▸ hstep
  refine ⟨u, hu, ?_⟩
  rcases Nat.lt_or_ge i s.accepted.length with hlt | hge
  · exact lt_of_lt_of_le hlt (step_history hstep).2.length_le
  · have hi : i = s.accepted.length := Nat.le_antisymm (hbefore s hs) hge
    have haccepted := genuine_accepted (run_wellFormed hs) (hi ▸ hsent) hstep
    rw [haccepted, List.length_append, hi]
    exact Nat.lt_succ_self _

/-- Genuine deliveries in sending order make the receiver accept number after number. -/
theorem genuineDeliveries_accepted_length {events : List Event} {g : Nat → Nat} {n : Nat}
    (hrun : run (step cmac order) (initial start) events = some t)
    (hdelivery : ∀ i < n, GenuineDelivery cmac order start events i (g i))
    (hmono : ∀ i j, i < j → j < n → g i < g j) {i : Nat} (hi : i < n) :
    ∃ u, run (step cmac order) (initial start) (events.take (g i + 1)) = some u ∧
      i < u.accepted.length := by
  induction i with
  | zero =>
      exact genuineDelivery_accepted_length hrun (hdelivery 0 hi) fun _ _ => Nat.zero_le _
  | succ i ih =>
      rcases ih (by omega) with ⟨u, hu, haccepted⟩
      refine genuineDelivery_accepted_length hrun (hdelivery (i + 1) hi) ?_
      intro s hs
      -- The state before delivery `i + 1` continues the run that delivered `i`.
      have hlater : g i + 1 ≤ g (i + 1) := hmono i (i + 1) (Nat.lt_succ_self i) hi
      rcases run_take hs (g i + 1) with ⟨u', hu', hrest⟩
      rw [List.take_take, Nat.min_eq_left hlater] at hu'
      have hsame : u' = u := Option.some.inj (hu'.symm.trans hu)
      exact le_trans haccepted (hsame ▸ (run_history hrest).2.length_le)

/-- A delivery that fails the acceptance test leaves the receive counter alone. -/
theorem refused_counter_eq (hwf : WellFormed cmac order start s) {pdu : SecOCPDU}
    {frame : Frame} (hrefused : accepts cmac order s.rxCounter frame pdu ≠ .ok true)
    (hstep : step cmac order s (.receive pdu frame) = some t) :
    t.rxCounter = s.rxCounter := by
  have hfits := hwf.flight_fits pdu (step_receive_mem hstep)
  rcases (step_receive hfits).mp hstep with ⟨-, ⟨hfresh, hmac, -⟩ | ⟨-, rfl⟩⟩
  · refine absurd ?_ hrefused
    rw [accepts_eq s.rxCounter frame hfits, decide_eq_true ⟨hfresh, hmac⟩]
  · rfl

/-- Accepted messages that follow pairwise different sent ones are each accepted once. -/
theorem accepted_exactly_once {accepted sent : List SecOCPDU}
    (hinOrder : accepted.map SecOCPDU.content <+: sent.map SecOCPDU.content)
    (hnodup : (sent.map SecOCPDU.content).Nodup) {k : Nat} (hk : k < accepted.length) :
    ∃ pdu, sent[k]? = some pdu ∧
      (accepted.map SecOCPDU.content)[k]? = some pdu.content ∧
        (accepted.map SecOCPDU.content).count pdu.content = 1 := by
  have hkAccepted : k < (accepted.map SecOCPDU.content).length := by
    rw [List.length_map]
    exact hk
  have hkSent : k < sent.length := by
    have hle := hinOrder.length_le
    rw [List.length_map, List.length_map] at hle
    omega
  have hget : (accepted.map SecOCPDU.content)[k]? = some sent[k].content := by
    rw [List.getElem?_eq_getElem hkAccepted, hinOrder.getElem hkAccepted, List.getElem_map]
  refine ⟨sent[k], List.getElem?_eq_getElem hkSent, hget, ?_⟩
  exact List.count_eq_one_of_mem (hnodup.sublist hinOrder.sublist)
    (List.mem_of_getElem? hget)

end Delivery

/-- In every unforged run with fewer than {lit}`2 ^ 32` sends in which every PDU has a
genuine delivery, at positions {lit}`g 0 < g 1 < …`: from position {lit}`g i` on the
accepted messages are the first ones sent, they include the numbers 0 to {lit}`i`, and
each of these was accepted exactly once; and a refused delivery never moves the
receive counter. -/
theorem genuine_deliveries_accepted (cmac : CmacFunction) (order : ByteOrder)
    (start : UInt32) (events : List Event) (final : State) (g : Nat → Nat)
    (hrun : run (step cmac order) (initial start) events = some final)
    (hunf : Along (step cmac order) (Unforged cmac order) (initial start) events)
    (hbound : final.sent.length < 2 ^ 32)
    (hdelivery : ∀ i < final.sent.length, GenuineDelivery cmac order start events i (g i))
    (hmono : ∀ i j, i < j → j < final.sent.length → g i < g j) :
    (∀ i < final.sent.length, ∀ m > g i,
      ∃ s, run (step cmac order) (initial start) (events.take m) = some s ∧
        s.accepted.map SecOCPDU.content <+: final.sent.map SecOCPDU.content ∧
          ∀ k ≤ i, ∃ pdu, final.sent[k]? = some pdu ∧
            (s.accepted.map SecOCPDU.content)[k]? = some pdu.content ∧
              (s.accepted.map SecOCPDU.content).count pdu.content = 1) ∧
      (∀ k s t pdu frame,
        run (step cmac order) (initial start) (events.take k) = some s →
          events[k]? = some (.receive pdu frame) →
            step cmac order s (.receive pdu frame) = some t →
              accepts cmac order s.rxCounter frame pdu ≠ .ok true →
                t.rxCounter = s.rxCounter) := by
  constructor
  · intro i hi m hm
    rcases genuineDeliveries_accepted_length hrun hdelivery hmono hi with ⟨u, hu, hlen⟩
    rcases run_take hrun m with ⟨s, hs, hrest⟩
    -- The state `u` right after the genuine delivery lies on the way to `s`.
    rcases run_take hs (g i + 1) with ⟨u', hu', hbetween⟩
    rw [List.take_take, Nat.min_eq_left hm] at hu'
    have hsame : u' = u := Option.some.inj (hu'.symm.trans hu)
    have hlater : u.accepted.length ≤ s.accepted.length :=
      hsame ▸ (run_history hbetween).2.length_le
    have hsent := (run_history hrest).1
    have hhere : s.accepted.map SecOCPDU.content <+: s.sent.map SecOCPDU.content :=
      accepted_content_prefix hs (hunf.take m) (lt_of_le_of_lt hsent.length_le hbound)
    have hall := hhere.trans (hsent.map SecOCPDU.content)
    have hnodup := sent_content_nodup (run_wellFormed hrun) hbound
    exact ⟨s, hs, hall, fun k hk => accepted_exactly_once hall hnodup (by omega)⟩
  · intro k s t pdu frame hs _ hstep hrefused
    exact refused_counter_eq (run_wellFormed hs) hrefused hstep

/-- The second PDU of the simulation's sender, with the data of the first. -/
def secondPdu : SecOCPDU where
  data := simulationData
  dataLen := 2
  freshness := 1001
  mac := ⟨[0xFB, 0xE3, 0x15, 0x0D], rfl⟩

/-- The attack goes on: the first PDU is injected once more, and the second one arrives
twice. -/
def longAttack : List Event :=
  simulationAttack ++
    [.send simulationData 2 clearFrame,
     .inject simulationPdu,
     .receive simulationPdu clearFrame,
     .duplicate secondPdu,
     .receive secondPdu clearFrame,
     .receive secondPdu clearFrame]

/-- The state after it. -/
def afterLongAttack : State where
  txCounter := 1002
  rxCounter := 1002
  inFlight := []
  sent := [simulationPdu, secondPdu]
  accepted := [simulationPdu, secondPdu]

/-- The positions of the two genuine deliveries. -/
def longAttackDelivery (i : Nat) : Nat :=
  if i = 0 then 4 else 10

theorem genuine_deliveries_of_longAttack :
    (∃ s, run (step simulationCmac .little) (initial 1000) (longAttack.take 11) = some s ∧
      s.accepted.map SecOCPDU.content <+: [simulationPdu, secondPdu].map SecOCPDU.content ∧
        ∀ k ≤ 1, ∃ pdu, [simulationPdu, secondPdu][k]? = some pdu ∧
          (s.accepted.map SecOCPDU.content)[k]? = some pdu.content ∧
            (s.accepted.map SecOCPDU.content).count pdu.content = 1) ∧
      ∀ t, step simulationCmac .little afterLongAttack (.inject simulationPdu) = some t →
        ∀ u, step simulationCmac .little t (.receive simulationPdu clearFrame) = some u →
          u.rxCounter = 1002 := by
  have h := genuine_deliveries_accepted simulationCmac .little 1000
    (longAttack ++ [.inject simulationPdu, .receive simulationPdu clearFrame])
    afterLongAttack longAttackDelivery (by decide) (by decide) (by decide)
    (by
      intro i hi
      have hcases : i = 0 ∨ i = 1 := by
        have hlt : i < 2 := hi
        omega
      rcases hcases with rfl | rfl
      · exact ⟨_, simulationPdu, clearFrame, rfl, rfl, rfl⟩
      · exact ⟨_, secondPdu, clearFrame, rfl, rfl, rfl⟩)
    (by
      intro i j hij hj
      have hlt : j < 2 := hj
      have hzero : i = 0 := by omega
      have hone : j = 1 := by omega
      subst hzero hone
      decide)
  refine ⟨h.1 1 (by decide) 11 (by decide), ?_⟩
  intro t ht u hu
  have hinject : t = { afterLongAttack with inFlight := [simulationPdu] } :=
    Option.some.inj (ht.symm.trans (by decide))
  subst hinject
  exact h.2 13 _ u simulationPdu clearFrame (by decide) rfl hu (by decide)

end AutomotiveSecurity.SecOC
