import AutomotiveSecurity.Tls.Connection

/-!
# What the two programs can show

Whichever calls fail and in whatever order the programs run, they show nothing but the front
of what the other one has sent.

Main results:

- Theorem {lit}`run_invariant_holds`: what is known at each pair of calls.
- Theorem {lit}`shown_texts_genuine`: what either program shows, in every reachable state.

Current gaps:

- None.
-/

namespace AutomotiveSecurity.Tls

open Memory OrderedChannel Prefix Runs

/-! ## The invariant -/

/-- What a program shows when it has received the given bytes. -/
def shownOf (received : List UInt8) : Option (List UInt8) :=
  if received = [] then none else some received

/-- What is known of the network when the client makes its next call. -/
def ClientAt (net : Network) : ClientPhase → Prop
  | .connecting =>
      net.connected = false ∧ net.requests.sent = [] ∧ net.responses.delivered = []
  | .handshaking => net.requests.sent = [] ∧ net.responses.delivered = []
  | .writing =>
      net.accepted = true ∧ net.requests.sent = [] ∧ net.responses.delivered = []
  | .reading => net.accepted = true ∧ net.responses.delivered = []
  | .closing => net.accepted = true
  | .exited code =>
      (code = 0 ∧ net.accepted = true) ∨
        (code = 1 ∧ net.requests.sent = [] ∧ net.responses.delivered = [])
  | .faulted _ => False

/-- What is known of the network when the server makes its next call. -/
def ServerAt (net : Network) : ServerPhase → Prop
  | .loading | .listening =>
      net.listening = false ∧ net.connected = false ∧ net.accepted = false ∧
        net.requests.delivered = [] ∧ net.responses.sent = []
  | .accepting =>
      net.accepted = false ∧ net.requests.delivered = [] ∧ net.responses.sent = []
  | .handshaking | .reading => net.requests.delivered = [] ∧ net.responses.sent = []
  | .writing => net.requests.delivered ≠ [] ∧ net.responses.sent = []
  | .closing => True
  | .exited code =>
      net.listening = false ∧
        (code = 0 ∨
          (code = 1 ∧ net.connected = false ∧ net.accepted = false ∧
            net.requests.delivered = [] ∧ net.responses.sent = []))
  | .faulted _ => False

/-- What holds in every reachable state. -/
structure Invariant (s : State) : Prop where
  requests_sent : s.net.requests.sent = [] ∨ s.net.requests.sent = request
  responses_sent : s.net.responses.sent = [] ∨ s.net.responses.sent = response
  answered : s.net.responses.sent ≠ [] → s.net.requests.delivered ≠ []
  server_shown : s.server.shown = shownOf s.net.requests.delivered
  client_shown : s.client.shown = shownOf s.net.responses.delivered
  client_at : ClientAt s.net s.client.phase
  server_at : ServerAt s.net s.server.phase

/-! ## Texts without a NUL -/

/-- Both texts are free of NULs, so what was received of one is shown whole. -/
theorem takeWhile_of_front {text received : List UInt8} (htext : ∀ b ∈ text, b ≠ 0)
    (hfront : received <+: text) : received.takeWhile (· ≠ 0) = received := by
  rw [List.takeWhile_eq_self_iff]
  intro b hb
  exact decide_eq_true (htext b (hfront.subset hb))

theorem request_free : ∀ b ∈ request, b ≠ 0 := by
  decide +kernel

theorem response_free : ∀ b ∈ response, b ≠ 0 := by
  decide +kernel

/-- What is still pending of a text, cut anywhere, is shown whole if nothing was received
before. -/
theorem takeWhile_pending {c : Channel UInt8} {text : List UInt8}
    (htext : ∀ b ∈ text, b ≠ 0) (hsent : c.sent = [] ∨ c.sent = text)
    (hdelivered : c.delivered = []) (count : Nat) :
    (c.pending.take count).takeWhile (· ≠ 0) = c.pending.take count := by
  have hpending : c.pending = c.sent := by
    simp [Channel.pending, hdelivered]
  rcases hsent with hnone | hsome
  · simp [hpending, hnone]
  · refine takeWhile_of_front htext ?_
    rw [hpending, hsome]
    exact List.take_prefix _ _

/-! ## Steps -/

theorem initial_invariant (clientBuffer serverBuffer : Buffer 256) :
    Invariant (initial clientBuffer serverBuffer) where
  requests_sent := Or.inl rfl
  responses_sent := Or.inl rfl
  answered := fun h => absurd rfl h
  server_shown := rfl
  client_shown := rfl
  client_at := ⟨rfl, rfl, rfl⟩
  server_at := ⟨rfl, rfl, rfl, rfl, rfl⟩

section Step

variable {s : State}

/-- Reading keeps the invariant between the bytes received and the text shown. -/
theorem receive_shown {φ : Type} {e : Endpoint φ} (silent shown : φ) (faulted : Fault → φ)
    {c : Channel UInt8} {text : List UInt8} (htext : ∀ b ∈ text, b ≠ 0)
    (hsent : c.sent = [] ∨ c.sent = text) (hdelivered : c.delivered = [])
    (hshown : e.shown = none) {count : Nat} (hcount : count ≤ 255) :
    (e.receive silent shown faulted (c.pending.take count)).shown =
        shownOf (c.deliverMany count).delivered ∧
      (e.receive silent shown faulted (c.pending.take count)).phase =
        if (c.deliverMany count).delivered = [] then silent else shown := by
  have hnew : (c.deliverMany count).delivered = c.pending.take count := by
    simp [Channel.deliverMany, hdelivered]
  rw [hnew]
  by_cases hnone : c.pending.take count = []
  · rw [hnone, Endpoint.receive_nil]
    exact ⟨hshown, rfl⟩
  · have hlen : (c.pending.take count).length ≤ 255 :=
      (List.length_take_le _ _).trans hcount
    rcases e.receive_eq silent shown faulted hnone hlen with ⟨buffer, hreceive⟩
    rw [hreceive, takeWhile_pending htext hsent hdelivered]
    simp [shownOf, hnone]

/-- A listening server has not ended, so that it learns of the connection. -/
theorem ServerAt.connect {net : Network} {phase : ServerPhase} (h : ServerAt net phase)
    (hfresh : net.connected = false) {succeeds : Bool}
    (hlistening : succeeds = true → net.listening = true) :
    ServerAt { net with connected := succeeds } phase := by
  cases succeeds with
  | false => rwa [← hfresh]
  | true =>
      have hopen : net.listening ≠ false := by simp [hlistening rfl]
      cases phase with
      | loading | listening | exited code => exact absurd h.1 hopen
      | accepting | handshaking | reading | writing | closing | faulted fault => exact h

/-- Before the server accepts, the client has not got past its handshake. -/
theorem ClientAt.accept {net : Network} {phase : ClientPhase} (h : ClientAt net phase)
    (hfresh : net.accepted = false) (succeeds : Bool) :
    ClientAt { net with accepted := succeeds } phase := by
  have hclosed : net.accepted ≠ true := by simp [hfresh]
  cases phase with
  | connecting | handshaking | faulted fault => exact h
  | writing | reading => exact absurd h.1 hclosed
  | closing => exact absurd h hclosed
  | exited code => exact Or.inr (h.resolve_left fun hdone => hclosed hdone.2)

/-- Every call of the client, whatever its outcome, keeps the invariant. -/
theorem client_invariant {call : ClientCall} (hinv : Invariant s)
    (henabled : ClientEnabled s call) : Invariant (clientNext s call) := by
  have hclient := hinv.client_at
  cases call with
  | connect succeeds =>
      rcases henabled with ⟨hphase, hlistening⟩
      rw [hphase] at hclient
      refine { hinv with client_at := ?_, server_at := ?_ }
      · cases succeeds with
        | true => exact hclient.2
        | false => exact Or.inr ⟨rfl, hclient.2⟩
      · exact hinv.server_at.connect hclient.1 hlistening
  | sslConnect succeeds =>
      rcases henabled with ⟨hphase, haccepted⟩
      rw [hphase] at hclient
      refine { hinv with client_at := ?_ }
      cases succeeds with
      | true => exact ⟨haccepted rfl, hclient⟩
      | false => exact Or.inr ⟨rfl, hclient⟩
  | sslWrite succeeds =>
      rw [show s.client.phase = .writing from henabled] at hclient
      refine { hinv with requests_sent := ?_, client_at := ⟨hclient.1, hclient.2.2⟩ }
      cases succeeds with
      | true => exact Or.inr (by simp [clientNext, Channel.sendAll, hclient.2.1])
      | false => exact Or.inl (by simp [clientNext, Channel.sendAll, hclient.2.1])
  | sslRead count =>
      rcases henabled with ⟨hphase, hcount, -⟩
      rw [hphase] at hclient
      have hshown : s.client.shown = none := by
        rw [hinv.client_shown, hclient.2]
        rfl
      have hread := receive_shown ClientPhase.closing ClientPhase.closing ClientPhase.faulted
        response_free hinv.responses_sent hclient.2 hshown hcount
      refine { hinv with client_shown := hread.1, client_at := ?_ }
      have hdone : (clientNext s (.sslRead count)).client.phase = .closing :=
        hread.2.trans (ite_self _)
      rw [hdone]
      exact hclient.1
  | finish =>
      rw [show s.client.phase = .closing from henabled] at hclient
      exact { hinv with client_at := Or.inl ⟨rfl, hclient⟩ }

/-- Every call of the server, whatever its outcome, keeps the invariant. -/
theorem server_invariant {call : ServerCall} (hinv : Invariant s)
    (henabled : ServerEnabled s call) : Invariant (serverNext s call) := by
  have hserver := hinv.server_at
  cases call with
  | loadCertificate succeeds =>
      rw [show s.server.phase = .loading from henabled] at hserver
      refine { hinv with server_at := ?_ }
      cases succeeds with
      | true => exact hserver
      | false => exact ⟨hserver.1, Or.inr ⟨rfl, hserver.2⟩⟩
  | listen succeeds =>
      rw [show s.server.phase = .listening from henabled] at hserver
      exact { hinv with server_at := hserver.2.2 }
  | accept succeeds =>
      rw [henabled.1] at hserver
      exact
        { hinv with
          client_at := hinv.client_at.accept hserver.1 succeeds
          server_at := hserver.2 }
  | sslAccept succeeds =>
      rw [henabled.1] at hserver
      refine { hinv with server_at := ?_ }
      cases succeeds with
      | true => exact hserver
      | false => trivial
  | sslRead count =>
      rcases henabled with ⟨hphase, hcount, -⟩
      rw [hphase] at hserver
      have hshown : s.server.shown = none := by
        rw [hinv.server_shown, hserver.1]
        rfl
      have hread := receive_shown ServerPhase.closing ServerPhase.writing ServerPhase.faulted
        request_free hinv.requests_sent hserver.1 hshown hcount
      refine
        { hinv with
          answered := fun hsent => absurd hserver.2 hsent
          server_shown := hread.1
          server_at := ?_ }
      have hphase' : (serverNext s (.sslRead count)).server.phase =
          if (s.net.requests.deliverMany count).delivered = [] then .closing else .writing :=
        hread.2
      rw [hphase']
      split
      · trivial
      · rename_i hsome
        exact ⟨hsome, hserver.2⟩
  | sslWrite succeeds =>
      rw [show s.server.phase = .writing from henabled] at hserver
      refine
        { hinv with
          responses_sent := ?_
          answered := fun _ => hserver.1
          server_at := trivial }
      cases succeeds with
      | true => exact Or.inr (by simp [serverNext, Channel.sendAll, hserver.2])
      | false => exact Or.inl (by simp [serverNext, Channel.sendAll, hserver.2])
  | finish => exact { hinv with server_at := ⟨rfl, Or.inl rfl⟩ }

end Step

/-- Every step keeps the invariant. -/
theorem step_invariant {s t : State} {e : Event} (hinv : Invariant s)
    (hstep : step s e = some t) : Invariant t := by
  cases e with
  | client call =>
      rcases step_client.mp hstep with ⟨henabled, rfl⟩
      exact client_invariant hinv henabled
  | server call =>
      rcases step_server.mp hstep with ⟨henabled, rfl⟩
      exact server_invariant hinv henabled

/-- The invariant holds in every reachable state. -/
theorem run_invariant_holds {clientBuffer serverBuffer : Buffer 256} {events : List Event}
    {s : State} (hrun : run step (initial clientBuffer serverBuffer) events = some s) :
    Invariant s :=
  run_invariant (P := fun _ _ => True) (fun _ _ _ hinv _ hstep => step_invariant hinv hstep)
    (initial_invariant clientBuffer serverBuffer) (along_of_forall fun _ _ _ => trivial) hrun

/-! ## What is shown -/

section Shown

variable {clientBuffer serverBuffer : Buffer 256} {events : List Event} {s : State}

/-- What is shown of a channel is a non-empty front of what was sent over it. -/
theorem shownOf_delivered {c : Channel UInt8} {text : List UInt8}
    (hshown : shownOf c.delivered = some text) : text ≠ [] ∧ text <+: c.sent := by
  unfold shownOf at hshown
  split at hshown
  · contradiction
  · rename_i hsome
    cases hshown
    exact ⟨hsome, c.in_order⟩

theorem shownOf_eq_none_iff {received : List UInt8} :
    shownOf received = none ↔ received = [] := by
  simp [shownOf]

/-- Where something was received of a text, it was sent. -/
theorem front_of_text {sent text received : List UInt8} (hsent : sent = [] ∨ sent = text)
    (hsome : received ≠ []) (hfront : received <+: sent) : received <+: text := by
  rcases hsent with rfl | rfl
  · exact absurd (List.prefix_nil.mp hfront) hsome
  · exact hfront

theorem server_shows (hinv : Invariant s) {text : List UInt8}
    (hshown : s.server.shown = some text) : text ≠ [] ∧ text <+: request := by
  have hfront := shownOf_delivered (hinv.server_shown.symm.trans hshown)
  exact ⟨hfront.1, front_of_text hinv.requests_sent hfront.1 hfront.2⟩

/-- The client shows something only after the server has. -/
theorem client_shows (hinv : Invariant s) {text : List UInt8}
    (hshown : s.client.shown = some text) :
    text ≠ [] ∧ text <+: response ∧ s.server.shown ≠ none := by
  have hfront := shownOf_delivered (hinv.client_shown.symm.trans hshown)
  refine ⟨hfront.1, front_of_text hinv.responses_sent hfront.1 hfront.2, ?_⟩
  rw [hinv.server_shown, ne_eq, shownOf_eq_none_iff]
  refine hinv.answered ?_
  rintro hnothing
  rw [hnothing] at hfront
  exact hfront.1 (List.prefix_nil.mp hfront.2)

/-- In every state the two programs reach together, whichever calls fail and in whatever
order they run: neither has left its receive buffer, the server has shown nothing or a
non-empty front of the request, and the client nothing or a non-empty front of the
response, and then the server has shown a request. -/
theorem shown_texts_genuine
    (hrun : run step (initial clientBuffer serverBuffer) events = some s) :
    (∀ fault, s.client.phase ≠ .faulted fault ∧ s.server.phase ≠ .faulted fault) ∧
      (∀ text, s.server.shown = some text → text ≠ [] ∧ text <+: request) ∧
        ∀ text, s.client.shown = some text →
          text ≠ [] ∧ text <+: response ∧ s.server.shown ≠ none := by
  have hinv := run_invariant_holds hrun
  refine ⟨fun fault => ⟨?_, ?_⟩, fun _ => server_shows hinv, fun _ => client_shows hinv⟩
  · intro hphase
    have hclient := hinv.client_at
    rwa [hphase] at hclient
  · intro hphase
    have hserver := hinv.server_at
    rwa [hphase] at hserver

end Shown

/-- The server is started first, and no call fails. -/
def wholeExchange : List Event :=
  [.server (.loadCertificate true), .server (.listen true), .client (.connect true),
   .server (.accept true), .client (.sslConnect true), .server (.sslAccept true),
   .client (.sslWrite true), .server (.sslRead 33), .server (.sslWrite true),
   .server .finish, .client (.sslRead 30), .client .finish]

theorem wholeExchange_run :
    ∃ s, run step (initial (Buffer.zero 256) (Buffer.zero 256)) wholeExchange = some s ∧
      s.client.phase = .exited 0 ∧ s.client.shown = some response ∧
        s.server.phase = .exited 0 ∧ s.server.shown = some request :=
  ⟨_, rfl, rfl, rfl, rfl, rfl⟩

theorem shown_texts_of_wholeExchange :
    ∃ s, run step (initial (Buffer.zero 256) (Buffer.zero 256)) wholeExchange = some s ∧
      (∀ fault, s.client.phase ≠ .faulted fault ∧ s.server.phase ≠ .faulted fault) ∧
        (∀ text, s.server.shown = some text → text ≠ [] ∧ text <+: request) ∧
          ∀ text, s.client.shown = some text →
            text ≠ [] ∧ text <+: response ∧ s.server.shown ≠ none := by
  rcases wholeExchange_run with ⟨s, hrun, -⟩
  exact ⟨s, hrun, shown_texts_genuine hrun⟩

end AutomotiveSecurity.Tls
