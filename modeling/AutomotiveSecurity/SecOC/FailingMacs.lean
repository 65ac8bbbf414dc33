import AutomotiveSecurity.SecOC.FailureModes
import AutomotiveSecurity.SecOC.Freshness

/-!
# SecOC runs with failing MAC computations

Neither ECU of {lit}`secoc_sim.c` looks at the results of its CMAC calls: after a
failure the sender transmits four bytes of its stack as the MAC, and the receiver
compares the transmitted MAC with four bytes of its own.  Here every send and every
delivery comes with the outcome of its own calls and with the bytes on the stack, and
the two ECUs run over the network of {lit}`SecOC.Simulation`.  An ECU that gets no context ends
at its first use, so that its steps do not occur.

Main results:

- Theorem {lit}`replays_rejected_under_faults_iff`: no failure weakens the protection
  against replays.
- Theorem {lit}`accepted_or_let_through`: a PDU is accepted for the sender's correct MAC,
  or because a failing check let it through; one PDU that is not correctly MACed ends the
  exchange.

Current gaps:

- Unforgeability is an assumption on the deliveries of a run.
-/

namespace AutomotiveSecurity.SecOC

open HostInteger Memory OpenSSL Prefix Runs

/-! ## What no failure changes -/

section Counting

/-- The PDUs of a log carry consecutive values of one counter. -/
def Sequenced (start : UInt32) (log : List SecOCPDU) : Prop :=
  ∀ i pdu, log[i]? = some pdu → pdu.Fits ∧ pdu.freshness = counter start i

/-- Both counters count their log, and the network holds only PDUs that fit. -/
structure Counted (start : UInt32) (s : State) : Prop where
  tx_eq : s.txCounter = counter start s.sent.length
  rx_eq : s.rxCounter = counter start s.accepted.length
  sent_sequenced : Sequenced start s.sent
  accepted_sequenced : Sequenced start s.accepted
  flight_fits : ∀ pdu ∈ s.inFlight, pdu.Fits

variable {cmac : CmacFunction} {order : ByteOrder} {start : UInt32} {s t : State}

theorem Sequenced.concat {log : List SecOCPDU} {pdu : SecOCPDU} (hlog : Sequenced start log)
    (hfits : pdu.Fits) (hfresh : pdu.freshness = counter start log.length) :
    Sequenced start (log ++ [pdu]) := by
  intro i q hq
  rcases getElem?_concat_cases hq with hold | ⟨rfl, rfl⟩
  · exact hlog i q hold
  · exact ⟨hfits, hfresh⟩

theorem initial_counted : Counted start (initial start) where
  tx_eq := by simp [initial]
  rx_eq := by simp [initial]
  sent_sequenced := by
    intro i pdu h
    simp [initial] at h
  accepted_sequenced := by
    intro i pdu h
    simp [initial] at h
  flight_fits := by
    intro pdu h
    simp [initial] at h

/-- Every step, whichever calls fail in it, keeps both counters with their logs. -/
theorem stepUnder_counted {e : CmacCalls × Event} (hcounted : Counted start s)
    (hstep : stepUnder cmac order s e = some t) : Counted start t := by
  rcases e with ⟨calls, e⟩
  cases e with
  | send data dataLen frame =>
      rcases stepUnder_send.mp hstep with ⟨-, hfits, rfl⟩
      constructor
      · simp [hcounted.tx_eq, counter_succ]
      · exact hcounted.rx_eq
      · exact hcounted.sent_sequenced.concat hfits hcounted.tx_eq
      · exact hcounted.accepted_sequenced
      · intro q hq
        rcases List.mem_cons.mp hq with rfl | hq
        · exact hfits
        · exact hcounted.flight_fits q hq
  | receive pdu frame =>
      have hfits := hcounted.flight_fits pdu (stepUnder_receive_mem hstep)
      have hflight : ∀ q ∈ s.inFlight.erase pdu, q.Fits :=
        fun q hq => hcounted.flight_fits q (List.mem_of_mem_erase hq)
      rcases stepUnder_receive hfits hstep with ⟨-, hfresh, -, rfl⟩ | ⟨-, rfl⟩
      · constructor
        · exact hcounted.tx_eq
        · simp [hcounted.rx_eq, counter_succ]
        · exact hcounted.sent_sequenced
        · exact hcounted.accepted_sequenced.concat hfits (hfresh.trans hcounted.rx_eq)
        · exact hflight
      · exact ⟨hcounted.tx_eq, hcounted.rx_eq, hcounted.sent_sequenced,
          hcounted.accepted_sequenced, hflight⟩
  | drop pdu | duplicate pdu | alter pdu altered | inject pdu =>
      rcases stepUnder_network hstep (by simp) (by simp) with ⟨flight, rfl, hflight⟩
      refine ⟨hcounted.tx_eq, hcounted.rx_eq, hcounted.sent_sequenced,
        hcounted.accepted_sequenced, ?_⟩
      intro q hq
      rcases hflight q hq with hold | hnew
      · exact hcounted.flight_fits q hold
      · exact hnew

theorem runUnder_counted {events : List (CmacCalls × Event)}
    (hrun : run (stepUnder cmac order) (initial start) events = some s) : Counted start s :=
  run_invariant (P := fun _ _ => True)
    (fun _ _ _ hcounted _ hstep => stepUnder_counted hcounted hstep)
    initial_counted (along_of_forall fun _ _ _ => trivial) hrun

end Counting

/-- Whatever calls fail on either side, and whatever the stacks hold: the accepted PDUs
carry consecutive freshness values, and each of them, delivered again, is refused
whichever calls fail then and reported by the replay test, if and only if fewer than
{lit}`2 ^ 32` minus the start value have been accepted. -/
theorem replays_rejected_under_faults_iff (cmac : CmacFunction) (order : ByteOrder)
    (start : UInt32) (events : List (CmacCalls × Event)) (s : State)
    (hrun : run (stepUnder cmac order) (initial start) events = some s) :
    s.accepted.map SecOCPDU.freshness = (List.range s.accepted.length).map (counter start) ∧
      ((∀ pdu ∈ s.accepted,
          (∀ calls frame, acceptsUnder cmac order calls s.rxCounter frame pdu = .ok false) ∧
            detectsReplay s.rxCounter pdu = true) ↔
        start.toNat + s.accepted.length < 2 ^ 32) := by
  have hcounted := runUnder_counted hrun
  constructor
  · apply List.ext_getElem?
    intro i
    rw [List.getElem?_map, List.getElem?_map]
    cases hget : s.accepted[i]? with
    | none =>
        rw [List.getElem?_eq_none_iff] at hget
        rw [List.getElem?_eq_none (by simpa using hget)]
        rfl
    | some pdu =>
        have hlt := (List.getElem?_eq_some_iff.mp hget).1
        rw [List.getElem?_range hlt]
        exact congrArg some (hcounted.accepted_sequenced i pdu hget).2
  rw [← counter_lt_iff]
  constructor
  · intro hrejected i hi
    have hsequenced := hcounted.accepted_sequenced i _ (List.getElem?_eq_getElem hi)
    have hbehind := (hrejected _ (List.getElem_mem hi)).2
    simpa [detectsReplay, hsequenced.2, hcounted.rx_eq] using hbehind
  · intro hbehind pdu hpdu
    rcases List.getElem?_of_mem hpdu with ⟨i, hi⟩
    have hsequenced := hcounted.accepted_sequenced i pdu hi
    have hlt : pdu.freshness < s.rxCounter := by
      rw [hsequenced.2, hcounted.rx_eq]
      exact hbehind i (List.getElem?_eq_some_iff.mp hi).1
    refine ⟨?_, by simpa [detectsReplay] using hlt⟩
    intro calls frame
    exact acceptsUnder_of_ne (UInt32.ne_of_lt hlt) frame

/-- The pattern in which only {lit}`CMAC_Init` fails. -/
def initFails : CmacCalls :=
  { CmacCalls.success with init := false }

/-- The second PDU of a sender whose {lit}`CMAC_Init` fails: its MAC is the one that was left on
the stack. -/
def stalePdu : SecOCPDU where
  data := simulationData
  dataLen := 2
  freshness := 1001
  mac := simulationPdu.mac

/-- {lit}`CMAC_Init` fails on both sides at the second PDU, over the same stale bytes. -/
def staleExchange : List (CmacCalls × Event) :=
  [(.success, .send simulationData 2 clearFrame),
   (.success, .receive simulationPdu clearFrame),
   (initFails, .send simulationData 2 staleFrame),
   (initFails, .receive stalePdu staleFrame)]

theorem stale_pdu_accepted_once :
    ∃ s, run (stepUnder simulationCmac .little) (initial 1000) staleExchange = some s ∧
      s.accepted = [simulationPdu, stalePdu] ∧
        ∀ calls frame, acceptsUnder simulationCmac .little calls s.rxCounter frame stalePdu =
          .ok false := by
  have hrun : ∃ s, run (stepUnder simulationCmac .little) (initial 1000) staleExchange =
      some s ∧ s.accepted = [simulationPdu, stalePdu] := ⟨_, rfl, by decide⟩
  rcases hrun with ⟨s, hs, haccepted⟩
  have h := (replays_rejected_under_faults_iff simulationCmac .little 1000 staleExchange s
    hs).2.mpr (by rw [haccepted]; decide)
  exact ⟨s, hs, haccepted, (h stalePdu (by simp [haccepted])).1⟩

/-! ## Why a PDU is accepted -/

section Acceptance

variable (cmac : CmacFunction) (order : ByteOrder)

/-- The PDU is correctly MACed: its MAC is its tag. -/
def CarriesTag (pdu : SecOCPDU) : Prop :=
  pdu.mac = pdu.tag cmac order

instance : DecidablePred (CarriesTag cmac order) := fun pdu =>
  inferInstanceAs (Decidable (pdu.mac = pdu.tag cmac order))

/-- A delivered PDU with the right tag carries the tag of a string that the sender has
correctly MACed before. -/
def UnforgedUnder (s : State) : CmacCalls × Event → Prop
  | (_, .receive pdu _) =>
      CarriesTag cmac order pdu →
        ∃ q ∈ s.sent, CarriesTag cmac order q ∧ q.authenticated order = pdu.authenticated order
  | _ => True

instance (s : State) : ∀ e, Decidable (UnforgedUnder cmac order s e)
  | (_, .receive pdu _) =>
      inferInstanceAs (Decidable (CarriesTag cmac order pdu →
        ∃ q ∈ s.sent, CarriesTag cmac order q ∧
          q.authenticated order = pdu.authenticated order))
  | (_, .send _ _ _) | (_, .drop _) | (_, .duplicate _) | (_, .alter _ _) | (_, .inject _) =>
      .isTrue trivial

/-- In the delivery that accepted the PDU as the given number a CMAC call failed, and the bytes
that were compared instead happened to be the transmitted MAC. -/
def LetThrough (start : UInt32) (events : List (CmacCalls × Event)) (i : Nat)
    (pdu : SecOCPDU) : Prop :=
  ∃ k s calls frame, run (stepUnder cmac order) (initial start) (events.take k) = some s ∧
    events[k]? = some (calls, .receive pdu frame) ∧ s.accepted.length = i ∧
      acceptsUnder cmac order calls s.rxCounter frame pdu = .ok true ∧
        calls ≠ .success ∧ pdu.mac = pdu.storedMac cmac order calls frame

/-- The PDU is, unused bytes aside, the given number of the log, and it was MACed. -/
def MacedAs (log : List SecOCPDU) (i : Nat) (pdu : SecOCPDU) : Prop :=
  ∃ q, log[i]? = some q ∧ CarriesTag cmac order q ∧ pdu.content = q.content

/-- What is known of every accepted PDU. -/
def Justified (start : UInt32) (events : List (CmacCalls × Event)) (s : State) : Prop :=
  ∀ i pdu, s.accepted[i]? = some pdu →
    MacedAs cmac order s.sent i pdu ∨ LetThrough cmac order start events i pdu

variable {cmac order} {start : UInt32} {s t : State}

/-- Two PDUs with their own tags and one authenticated string have one content. -/
theorem content_eq_of_tags {p q : SecOCPDU} (hp : p.Fits) (hq : q.Fits)
    (hpTag : CarriesTag cmac order p) (hqTag : CarriesTag cmac order q)
    (h : p.authenticated order = q.authenticated order) : p.content = q.content :=
  @content_eq_of_authenticated cmac order p q _ _ ⟨hp, rfl, hpTag⟩ ⟨hq, rfl, hqTag⟩ h

/-- A delivery whose calls succeed accepts only the sender's PDU of the number that the
receiver expects. -/
theorem macedAs_of_accepted (hcounted : Counted start s) {calls : CmacCalls}
    {pdu : SecOCPDU} {frame : Frame} (hfits : pdu.Fits)
    (hunf : UnforgedUnder cmac order s (calls, .receive pdu frame))
    (hsent : s.sent.length < 2 ^ 32) (haccepted : s.accepted.length < 2 ^ 32)
    (hfresh : pdu.freshness = s.rxCounter) (htag : CarriesTag cmac order pdu) :
    MacedAs cmac order s.sent s.accepted.length pdu := by
  rcases hunf htag with ⟨q, hq, hqTag, hstring⟩
  rcases List.getElem?_of_mem hq with ⟨i, hi⟩
  have hqSequenced := hcounted.sent_sequenced i q hi
  have hcontent : pdu.content = q.content :=
    content_eq_of_tags hfits hqSequenced.1 htag hqTag hstring.symm
  -- One freshness value and fewer than 2 ^ 32 increments on both sides: one number.
  have hfreshness : pdu.freshness = q.freshness := congrArg (fun x => x.2.1) hcontent
  have hilt : i < s.sent.length := (List.getElem?_eq_some_iff.mp hi).1
  have hindex : i = s.accepted.length := by
    apply counter_inj (by omega) haccepted
    rw [← hqSequenced.2, ← hfreshness, hfresh, hcounted.rx_eq]
  exact ⟨q, hindex ▸ hi, hqTag, hcontent⟩

theorem MacedAs.mono {log log' : List SecOCPDU} {i : Nat} {pdu : SecOCPDU}
    (hmaced : MacedAs cmac order log i pdu) (hlog : log <+: log') :
    MacedAs cmac order log' i pdu := by
  rcases hmaced with ⟨q, hq, hrest⟩
  rcases hlog with ⟨rest, rfl⟩
  refine ⟨q, ?_, hrest⟩
  rw [List.getElem?_append_left (List.getElem?_eq_some_iff.mp hq).1, hq]

/-- Fewer than {lit}`2 ^ 32` PDUs have been sent, and fewer accepted. -/
def BelowWrap (s : State) : Prop :=
  s.sent.length < 2 ^ 32 ∧ s.accepted.length < 2 ^ 32

instance : DecidablePred BelowWrap := fun s =>
  inferInstanceAs (Decidable (s.sent.length < 2 ^ 32 ∧ s.accepted.length < 2 ^ 32))

/-- One step adds at most one accepted PDU, and there is a reason for it. -/
theorem stepUnder_justified {events : List (CmacCalls × Event)} {e : CmacCalls × Event}
    (hcounted : Counted start s) (hjust : Justified cmac order start events s)
    (hposition : ∃ k, run (stepUnder cmac order) (initial start) (events.take k) = some s ∧
      events[k]? = some e)
    (hunf : UnforgedUnder cmac order s e) (hbelow : BelowWrap s)
    (hstep : stepUnder cmac order s e = some t) : Justified cmac order start events t := by
  rcases e with ⟨calls, e⟩
  cases e with
  | send data dataLen frame =>
      rcases stepUnder_send.mp hstep with ⟨-, -, rfl⟩
      intro i q hq
      rcases hjust i q hq with hmaced | hthrough
      · exact Or.inl (hmaced.mono (List.prefix_append _ _))
      · exact Or.inr hthrough
  | receive pdu frame =>
      have hfits := hcounted.flight_fits pdu (stepUnder_receive_mem hstep)
      rcases stepUnder_receive hfits hstep with ⟨haccepts, hfresh, hmac, rfl⟩ | ⟨-, rfl⟩
      · intro i q hq
        rcases getElem?_concat_cases hq with hold | ⟨rfl, rfl⟩
        · exact hjust i q hold
        · by_cases hsuccess : calls = .success
          · have htag : CarriesTag cmac order q := by
              rw [CarriesTag, hmac, hsuccess, storedMac_success]
            exact Or.inl (macedAs_of_accepted hcounted hfits hunf hbelow.1 hbelow.2 hfresh
              htag)
          · rcases hposition with ⟨k, hrun, hevent⟩
            exact Or.inr ⟨k, s, calls, frame, hrun, hevent, rfl, haccepts, hsuccess, hmac⟩
      · exact hjust
  | drop pdu | duplicate pdu | alter pdu altered | inject pdu =>
      rcases stepUnder_network hstep (by simp) (by simp) with ⟨flight, rfl, -⟩
      exact hjust

/-- In every unforged run below the wrap-around there is a reason for each acceptance. -/
theorem runUnder_justified {events : List (CmacCalls × Event)}
    (hrun : run (stepUnder cmac order) (initial start) events = some s)
    (hunf : Along (stepUnder cmac order) (UnforgedUnder cmac order) (initial start) events)
    (hbelow : BelowWrap s) : Justified cmac order start events s := by
  have hback : ∀ u e v, stepUnder cmac order u e = some v → BelowWrap v → BelowWrap u := by
    intro u e v hstep hv
    have hhistory := stepUnder_history hstep
    exact ⟨lt_of_le_of_lt hhistory.1.length_le hv.1,
      lt_of_le_of_lt hhistory.2.length_le hv.2⟩
  have hpermitted : Along (stepUnder cmac order)
      (fun u e => ((∃ k, run (stepUnder cmac order) (initial start) (events.take k) = some u ∧
        events[k]? = some e) ∧ UnforgedUnder cmac order u e) ∧ BelowWrap u)
      (initial start) events :=
    ((along_position _ _ _).and hunf).and (along_of_final hback hrun hbelow).1
  have hinv := run_invariant
    (I := fun u => Counted start u ∧ Justified cmac order start events u)
    (fun u e v hinv hpermitted hstep =>
      ⟨stepUnder_counted hinv.1 hstep,
        stepUnder_justified hinv.1 hinv.2 hpermitted.1.1 hpermitted.1.2 hpermitted.2 hstep⟩)
    ⟨initial_counted, by simp [Justified, initial]⟩ hpermitted hrun
  exact hinv.2

end Acceptance

/-- Whatever calls fail and whatever the stacks hold, in every unforged run with fewer than
{lit}`2 ^ 32` PDUs sent and accepted: the PDU that was accepted as number {lit}`i` is the one
that was sent as number {lit}`i` and was correctly MACed, or the check that accepted it had a
failing call and let it through.  So if no check lets anything through, then nothing is accepted
any more from the first PDU on that was not correctly MACed. -/
theorem accepted_or_let_through (cmac : CmacFunction) (order : ByteOrder) (start : UInt32)
    (events : List (CmacCalls × Event)) (s : State)
    (hrun : run (stepUnder cmac order) (initial start) events = some s)
    (hunf : Along (stepUnder cmac order) (UnforgedUnder cmac order) (initial start) events)
    (hbelow : BelowWrap s) :
    (∀ i pdu, s.accepted[i]? = some pdu →
        MacedAs cmac order s.sent i pdu ∨ LetThrough cmac order start events i pdu) ∧
      ((∀ i pdu, s.accepted[i]? = some pdu → ¬LetThrough cmac order start events i pdu) →
        s.accepted.map SecOCPDU.content <+:
          (s.sent.takeWhile fun pdu => CarriesTag cmac order pdu).map SecOCPDU.content) := by
  have hjust := runUnder_justified hrun hunf hbelow
  refine ⟨hjust, ?_⟩
  intro hnone
  have hmaced : ∀ i pdu, s.accepted[i]? = some pdu → MacedAs cmac order s.sent i pdu := by
    intro i pdu hget
    exact (hjust i pdu hget).resolve_right (hnone i pdu hget)
  rw [List.prefix_iff_getElem?]
  intro i hi
  rw [List.length_map] at hi
  rcases hmaced i _ (List.getElem?_eq_getElem hi) with ⟨q, hq, -, hcontent⟩
  -- Every number up to `i` has been accepted, so the sender has MACed all of them.
  have hkept : (s.sent.takeWhile fun pdu => CarriesTag cmac order pdu)[i]? = some q := by
    refine (getElem?_takeWhile_iff hq).mpr ?_
    intro j hj y hy
    have hjlt : j < s.accepted.length := lt_of_le_of_lt hj hi
    rcases hmaced j _ (List.getElem?_eq_getElem hjlt) with ⟨q', hq', htag, -⟩
    have hsame : y = q' := Option.some.inj (hy.symm.trans hq')
    exact hsame ▸ decide_eq_true htag
  rw [List.getElem?_map, hkept, List.getElem_map, hcontent]
  rfl

/-- The sender's second MAC computation fails over cleared stack bytes; all three PDUs are
delivered in order, and no check fails. -/
def silentExchange : List (CmacCalls × Event) :=
  [(.success, .send simulationData 2 clearFrame),
   (.success, .receive simulationPdu clearFrame),
   (initFails, .send simulationData 2 clearFrame),
   (.success, .receive { secondPdu with mac := Buffer.zero 4 } clearFrame),
   (.success, .send simulationData 2 clearFrame),
   (.success, .receive (stampedPdu simulationCmac .little simulationData 2 1002) clearFrame)]

theorem nothing_accepted_after_failed_mac :
    ∃ s, run (stepUnder simulationCmac .little) (initial 1000) silentExchange = some s ∧
      s.sent.length = 3 ∧
        s.accepted.map SecOCPDU.content <+: [simulationPdu].map SecOCPDU.content := by
  have hrun : ∃ s, run (stepUnder simulationCmac .little) (initial 1000) silentExchange =
      some s ∧ BelowWrap s ∧ s.sent.length = 3 ∧
        (s.sent.takeWhile fun pdu => CarriesTag simulationCmac .little pdu) =
          [simulationPdu] := ⟨_, rfl, by decide, by decide, by decide⟩
  rcases hrun with ⟨s, hs, hbelow, hsent, hkept⟩
  have h := accepted_or_let_through simulationCmac .little 1000 silentExchange s hs
    (by decide) hbelow
  refine ⟨s, hs, hsent, ?_⟩
  rw [← hkept]
  refine h.2 fun i pdu _ => ?_
  rintro ⟨k, u, calls, frame, -, hevent, -, -, hcalls, -⟩
  have hmem := List.mem_of_getElem? hevent
  simp [silentExchange, hcalls] at hmem

end AutomotiveSecurity.SecOC
