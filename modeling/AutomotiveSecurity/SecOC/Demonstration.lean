import AutomotiveSecurity.SecOC.FailingMacs

/-!
# The demonstration of {lit}`secoc_sim.c`

{lit}`main` sends one PDU, receives it, looks at a replay of it, and checks a PDU with other data
under the MAC of the first.  Any of its CMAC calls may fail, and none of them is looked at; a
missing context ends the program when it is used.

Main results:

- Theorem {lit}`main_is_run`: the exchange in {lit}`main` is a run of the system.
- Theorem {lit}`secoc_main_reports`: what {lit}`main` prints, for every pattern of failing calls.

Current gaps:

- The data and the start value are arbitrary; those of the program are one choice of them.
-/

namespace AutomotiveSecurity.SecOC

open HostInteger Memory OpenSSL Runs

/-! ## The program -/

/-- One MAC computation as it happens in {lit}`main`: the failing calls, and what the local
arrays hold on entry. -/
structure MacRun where
  calls : CmacCalls
  frame : Frame
deriving DecidableEq, Repr

/-- The three MAC computations of {lit}`main`. -/
structure MainRuns where
  send : MacRun
  receive : MacRun
  tampered : MacRun
deriving DecidableEq, Repr

/-- Each of the three computations has got its context. -/
def MainRuns.Contexts (runs : MainRuns) : Prop :=
  runs.send.calls.ctxNew = true ∧ runs.receive.calls.ctxNew = true ∧
    runs.tampered.calls.ctxNew = true

/-- What {lit}`print_pdu` prints. -/
structure ShownPdu where
  data : List UInt8
  freshness : UInt32
  mac : Buffer 4
deriving DecidableEq, Repr

/-- {lit}`print_pdu`. -/
def printPdu (pdu : SecOCPDU) : Except Fault ShownPdu := do
  let data ← load pdu.data.bytes pdu.dataLen.toNat
  return { data := data, freshness := pdu.freshness, mac := pdu.mac }

/-- What {lit}`main` prints about the PDU it sends, and which of its three messages of success it
prints. -/
structure MainReport where
  shown : ShownPdu
  accepted : Bool
  replayDetected : Bool
  tamperDetected : Bool
deriving DecidableEq, Repr

/-- The counter of the receiver after the first delivery. -/
def counterAfter (accepted : Bool) (start : UInt32) : UInt32 :=
  if accepted then start + 1 else start

/-- {lit}`tampered_pdu`: other data under the MAC of the PDU that was sent. -/
def tamperedFor (tamperedData : Buffer 8) (tamperedLen : UInt8) (rxCounter : UInt32)
    (txPdu : SecOCPDU) : SecOCPDU where
  data := tamperedData
  dataLen := tamperedLen
  freshness := rxCounter
  mac := txPdu.mac

/-- {lit}`main` of {lit}`secoc_sim.c`, for any data and any value of the two counters in place of
its own. -/
def secocSimMain (cmac : CmacFunction) (order : ByteOrder) (runs : MainRuns) (start : UInt32)
    (data : Buffer 8) (dataLen : UInt8) (tamperedData : Buffer 8) (tamperedLen : UInt8) :
    Except Fault MainReport := do
  let txPdu ← withContext runs.send.calls (calculateSecocMac cmac order runs.send.calls
    runs.send.frame (draftPdu data dataLen start))
  let shown ← printPdu txPdu
  let accepted ← acceptsUnder cmac order runs.receive.calls start runs.receive.frame txPdu
  let rxCounter := counterAfter accepted start
  let verified ← withContext runs.tampered.calls (verifySecocMac cmac order runs.tampered.calls
    runs.tampered.frame (tamperedFor tamperedData tamperedLen rxCounter txPdu))
  return {
    shown := shown
    accepted := accepted
    replayDetected := detectsReplay rxCounter txPdu
    tamperDetected := verified = 0 }

/-! ## What it prints -/

section Results

variable (cmac : CmacFunction) (order : ByteOrder) (runs : MainRuns) (start : UInt32)
  (data : Buffer 8) (dataLen : UInt8)

/-- {lit}`tx_pdu` after its MAC has been calculated. -/
def sentPdu : SecOCPDU :=
  markedPdu cmac order runs.send.calls runs.send.frame data dataLen start

/-- The exchange in {lit}`main`: {lit}`rx_pdu` and {lit}`replay_pdu` are two copies of
{lit}`tx_pdu`. -/
def mainEvents : List (CmacCalls × Event) :=
  [(runs.send.calls, .send data dataLen runs.send.frame),
   (.success, .duplicate (sentPdu cmac order runs start data dataLen)),
   (runs.receive.calls,
    .receive (sentPdu cmac order runs start data dataLen) runs.receive.frame)]

/-- The receiver finds in {lit}`rx_pdu` the bytes it compares with. -/
def Matches : Prop :=
  (sentPdu cmac order runs start data dataLen).mac =
    (sentPdu cmac order runs start data dataLen).storedMac cmac order runs.receive.calls
      runs.receive.frame

instance : Decidable (Matches cmac order runs start data dataLen) :=
  inferInstanceAs (Decidable (_ = _))

/-- The bytes compared with the MAC of the changed PDU differ from it. -/
def TamperingShows (tamperedData : Buffer 8) (tamperedLen : UInt8) (rxCounter : UInt32) : Prop :=
  (sentPdu cmac order runs start data dataLen).mac ≠
    (tamperedFor tamperedData tamperedLen rxCounter
      (sentPdu cmac order runs start data dataLen)).storedMac cmac order runs.tampered.calls
        runs.tampered.frame

instance (tamperedData : Buffer 8) (tamperedLen : UInt8) (rxCounter : UInt32) :
    Decidable (TamperingShows cmac order runs start data dataLen tamperedData tamperedLen
      rxCounter) :=
  inferInstanceAs (Decidable (_ ≠ _))

/-- The state of the two ECUs after the exchange; the replayed copy is still in flight. -/
def afterMain : State where
  txCounter := start + 1
  rxCounter := counterAfter (decide (Matches cmac order runs start data dataLen)) start
  inFlight := [sentPdu cmac order runs start data dataLen]
  sent := [sentPdu cmac order runs start data dataLen]
  accepted :=
    if Matches cmac order runs start data dataLen then
      [sentPdu cmac order runs start data dataLen]
    else []

/-- The PDU has been sent, and so many copies of it are on the network. -/
def inTransit (pdu : SecOCPDU) (start : UInt32) (copies : Nat) : State where
  txCounter := start + 1
  rxCounter := start
  inFlight := List.replicate copies pdu
  sent := [pdu]
  accepted := []

variable {dataLen}

/-- The exchange in {lit}`main` is a run of the sender, the receiver and a network that
duplicates one PDU. -/
theorem main_is_run (hcontexts : runs.Contexts) (hlen : dataLen.toNat ≤ 8) :
    run (stepUnder cmac order) (initial start) (mainEvents cmac order runs start data dataLen) =
      some (afterMain cmac order runs start data dataLen) := by
  have hfits : (sentPdu cmac order runs start data dataLen).Fits := hlen
  have hsend : stepUnder cmac order (initial start)
      (runs.send.calls, .send data dataLen runs.send.frame) =
        some (inTransit (sentPdu cmac order runs start data dataLen) start 1) :=
    stepUnder_send.mpr ⟨hcontexts.1, hlen, rfl⟩
  have hduplicate : stepUnder cmac order
      (inTransit (sentPdu cmac order runs start data dataLen) start 1)
      (.success, .duplicate (sentPdu cmac order runs start data dataLen)) =
        some (inTransit (sentPdu cmac order runs start data dataLen) start 2) :=
    if_pos List.mem_cons_self
  refine run_cons.mpr ⟨_, hsend, run_cons.mpr ⟨_, hduplicate, run_singleton.mpr ?_⟩⟩
  rw [stepUnder_receive_eq hcontexts.2.1 hfits List.mem_cons_self]
  by_cases hmatch : Matches cmac order runs start data dataLen
  · rw [if_pos ⟨rfl, hmatch⟩]
    simp [afterMain, inTransit, counterAfter, hmatch]
  · rw [if_neg fun hok => hmatch hok.2]
    simp [afterMain, inTransit, counterAfter, hmatch]

/-- The replay test finds the PDU behind the counter if it has been accepted and the counter
has not wrapped around. -/
theorem replay_after_iff (accepted : Bool) (start : UInt32) :
    start < counterAfter accepted start ↔ accepted = true ∧ start ≠ 0xFFFFFFFF := by
  cases accepted with
  | false => simp [counterAfter]
  | true =>
      have hlt : start.toNat < 2 ^ 32 := start.toNat_lt
      simp only [counterAfter, ↓reduceIte, true_and, ne_eq, UInt32.lt_iff_toNat_lt,
        UInt32.toNat_add, UInt32.toNat_one, ← UInt32.toNat_inj]
      have hmax : (0xFFFFFFFF : UInt32).toNat = 2 ^ 32 - 1 := rfl
      rw [hmax]
      omega

/-- The MAC of {lit}`tx_pdu` is calculated inside the arrays. -/
theorem sendRun_eq (hnew : runs.send.calls.ctxNew = true) (hlen : dataLen.toNat ≤ 8) :
    withContext runs.send.calls (calculateSecocMac cmac order runs.send.calls runs.send.frame
      (draftPdu data dataLen start)) =
        .ok (sentPdu cmac order runs start data dataLen) := by
  have hfits : (draftPdu data dataLen start).Fits := hlen
  rw [withContext_of_new hnew]
  exact calculateSecocMac_of_calls cmac order runs.send.calls runs.send.frame hfits

/-- {lit}`tx_pdu` is printed inside its array. -/
theorem printPdu_sent (hlen : dataLen.toNat ≤ 8) :
    printPdu (sentPdu cmac order runs start data dataLen) =
      .ok { data := data.bytes.take dataLen.toNat, freshness := start,
            mac := (sentPdu cmac order runs start data dataLen).mac } := by
  have hload : load data.bytes dataLen.toNat = .ok (data.bytes.take dataLen.toNat) :=
    load_of_le (by rw [data.size_eq]; exact hlen)
  show (load data.bytes dataLen.toNat >>= _) = _
  rw [hload]
  rfl

/-- {lit}`rx_pdu` has the expected freshness value, so that its MAC decides. -/
theorem receiveRun_eq (hnew : runs.receive.calls.ctxNew = true) (hlen : dataLen.toNat ≤ 8) :
    acceptsUnder cmac order runs.receive.calls start runs.receive.frame
        (sentPdu cmac order runs start data dataLen) =
      .ok (decide (Matches cmac order runs start data dataLen)) := by
  have hfits : (sentPdu cmac order runs start data dataLen).Fits := hlen
  rw [acceptsUnder_eq hnew start runs.receive.frame hfits]
  exact congrArg Except.ok (decide_eq_decide.mpr (and_iff_right rfl))

/-- Without one of its contexts {lit}`main` ends at a null pointer. -/
theorem secocSimMain_of_null (hnull : ¬runs.Contexts) (hlen : dataLen.toNat ≤ 8)
    (tamperedData : Buffer 8) (tamperedLen : UInt8) :
    secocSimMain cmac order runs start data dataLen tamperedData tamperedLen =
      .error (.read 0) := by
  cases hsend : runs.send.calls.ctxNew with
  | false => simp only [secocSimMain, withContext_of_null hsend, bind, Except.bind]
  | true =>
      cases hreceive : runs.receive.calls.ctxNew with
      | false =>
          have haccepts := @acceptsUnder_of_null cmac order _ hreceive start
            (sentPdu cmac order runs start data dataLen) rfl runs.receive.frame
          simp only [secocSimMain, sendRun_eq cmac order runs start data hsend hlen,
            printPdu_sent cmac order runs start data hlen, haccepts, bind, Except.bind]
      | true =>
          have htampered : runs.tampered.calls.ctxNew = false :=
            Bool.eq_false_iff.mpr fun hnew => hnull ⟨hsend, hreceive, hnew⟩
          simp only [secocSimMain, sendRun_eq cmac order runs start data hsend hlen,
            printPdu_sent cmac order runs start data hlen,
            receiveRun_eq cmac order runs start data hreceive hlen,
            withContext_of_null htampered, bind, Except.bind]

/-- Inside the arrays {lit}`main` comes to its end. -/
theorem secocSimMain_eq (hcontexts : runs.Contexts) (hlen : dataLen.toNat ≤ 8)
    {tamperedData : Buffer 8} {tamperedLen : UInt8} (htamperedLen : tamperedLen.toNat ≤ 8) :
    secocSimMain cmac order runs start data dataLen tamperedData tamperedLen =
      .ok
        { shown :=
            { data := data.bytes.take dataLen.toNat
              freshness := start
              mac := (sentPdu cmac order runs start data dataLen).mac }
          accepted := Matches cmac order runs start data dataLen
          replayDetected :=
            detectsReplay (counterAfter (Matches cmac order runs start data dataLen) start)
              (sentPdu cmac order runs start data dataLen)
          tamperDetected := TamperingShows cmac order runs start data dataLen
            tamperedData tamperedLen
            (counterAfter (Matches cmac order runs start data dataLen) start) } := by
  have hverify : ∀ rxCounter, verifySecocMac cmac order runs.tampered.calls runs.tampered.frame
      (tamperedFor tamperedData tamperedLen rxCounter
        (sentPdu cmac order runs start data dataLen)) =
      .ok (if TamperingShows cmac order runs start data dataLen tamperedData
        tamperedLen rxCounter then 0 else 1) := by
    intro rxCounter
    have hfits : (tamperedFor tamperedData tamperedLen rxCounter
        (sentPdu cmac order runs start data dataLen)).Fits := htamperedLen
    rw [verifySecocMac_of_calls cmac order runs.tampered.calls runs.tampered.frame hfits]
    by_cases hshows : TamperingShows cmac order runs start data dataLen tamperedData tamperedLen
        rxCounter
    · rw [if_pos hshows]
      exact congrArg Except.ok (if_neg hshows)
    · rw [if_neg hshows]
      exact congrArg Except.ok (if_pos (not_not.mp hshows))
  simp only [secocSimMain, sendRun_eq cmac order runs start data hcontexts.1 hlen,
    printPdu_sent cmac order runs start data hlen,
    receiveRun_eq cmac order runs start data hcontexts.2.1 hlen,
    withContext_of_new hcontexts.2.2, hverify, bind, Except.bind, pure, Except.pure]
  simp

end Results

/-- For all data that fits, every start value of the counters, every pattern of failing calls
and every content of the stack.  If each of the three computations gets its context, then
{lit}`main` stays inside its arrays and prints the PDU it has sent; its exchange is a run of the
two ECUs, and it reports what that run accepts.  The replay is detected exactly if the PDU has
been accepted and the counter has not wrapped around, and the changed data exactly if the bytes
compared with the transmitted MAC differ from it.  Otherwise {lit}`main` ends at the null
pointer of the first computation that lacks its context. -/
theorem secoc_main_reports (cmac : CmacFunction) (order : ByteOrder) (runs : MainRuns)
    (start : UInt32) (data : Buffer 8) (dataLen : UInt8) (tamperedData : Buffer 8)
    (tamperedLen : UInt8) (hlen : dataLen.toNat ≤ 8) (htamperedLen : tamperedLen.toNat ≤ 8) :
    (runs.Contexts → ∃ report s,
      secocSimMain cmac order runs start data dataLen tamperedData tamperedLen = .ok report ∧
      run (stepUnder cmac order) (initial start)
          (mainEvents cmac order runs start data dataLen) = some s ∧
      s.sent.map (fun pdu => ShownPdu.mk pdu.payload pdu.freshness pdu.mac) = [report.shown] ∧
      (report.accepted = true ↔ s.accepted = s.sent) ∧
      (report.accepted = false ↔ s.accepted = []) ∧
      (report.replayDetected = true ↔ report.accepted = true ∧ start ≠ 0xFFFFFFFF) ∧
      (report.tamperDetected = true ↔ ∀ pdu ∈ s.sent,
        pdu.mac ≠ (tamperedFor tamperedData tamperedLen s.rxCounter pdu).storedMac cmac order
          runs.tampered.calls runs.tampered.frame)) ∧
    (¬runs.Contexts →
      secocSimMain cmac order runs start data dataLen tamperedData tamperedLen =
        .error (.read 0)) := by
  refine ⟨fun hcontexts => ?_, fun hnull =>
    secocSimMain_of_null cmac order runs start data hnull hlen tamperedData tamperedLen⟩
  refine ⟨_, _, secocSimMain_eq cmac order runs start data hcontexts hlen htamperedLen,
    main_is_run cmac order runs start data hcontexts hlen, rfl, ?_, ?_, ?_, ?_⟩
  · by_cases hmatch : Matches cmac order runs start data dataLen <;> simp [afterMain, hmatch]
  · by_cases hmatch : Matches cmac order runs start data dataLen <;> simp [afterMain, hmatch]
  · exact decide_eq_true_iff.trans (replay_after_iff _ start)
  · refine decide_eq_true_iff.trans ?_
    simp [afterMain, TamperingShows]

/-- In the last check {lit}`CMAC_Init` fails over the MAC of {lit}`tx_pdu`. -/
def staleCheck : MainRuns where
  send := { calls := .success, frame := clearFrame }
  receive := { calls := .success, frame := clearFrame }
  tampered := { calls := initFails, frame := staleFrame }

/-- The program then reports the acceptance and the replay, and not the tampering. -/
theorem stale_check_hides_tampering :
    ∃ report, secocSimMain simulationCmac .little staleCheck 1000 simulationData 2 tamperedData
        2 = .ok report ∧
      report.accepted = true ∧ report.replayDetected = true ∧ report.tamperDetected = false := by
  rcases (secoc_main_reports simulationCmac .little staleCheck 1000 simulationData 2
    tamperedData 2 (by decide) (by decide)).1 ⟨rfl, rfl, rfl⟩ with
    ⟨report, s, hmain, hrun, -, haccepted, -, hreplay, htamper⟩
  have hstate : s = afterMain simulationCmac .little staleCheck 1000 simulationData 2 :=
    Option.some.inj (hrun.symm.trans (by decide))
  subst hstate
  have haccepts : report.accepted = true := haccepted.mpr (by decide)
  refine ⟨report, hmain, haccepts, hreplay.mpr ⟨haccepts, by decide⟩, ?_⟩
  rw [Bool.eq_false_iff]
  exact fun hdetected => absurd (htamper.mp hdetected) (by decide)

end AutomotiveSecurity.SecOC
