import AutomotiveSecurity.Tls.Processes

/-!
# How the two programs can end

The ways in which both processes end and the texts they have shown by then, over all orders
in which the programs run, all failures of their calls and all deaths by {lit}`SIGPIPE`.

Main results:

- Theorem {lit}`outcomes_exactly`: the nine outcomes that two processes can have.

Current gaps:

- None.
-/

namespace AutomotiveSecurity.Tls

open Memory OrderedChannel Runs

/-- How each process has ended and what it has shown. -/
structure Outcome where
  client : End
  clientShown : Option (List UInt8)
  server : End
  serverShown : Option (List UInt8)
deriving DecidableEq, Repr

/-- Both processes have ended with the outcome. -/
def Ends (p : Processes) (o : Outcome) : Prop :=
  p.clientEnd = some o.client ∧ p.system.client.shown = o.clientShown ∧
    p.serverEnd = some o.server ∧ p.system.server.shown = o.serverShown

/-- The outcomes that two processes can have. -/
inductive Possible : Outcome → Prop
  /-- Both texts have arrived. -/
  | complete : Possible ⟨.exited 0, some response, .exited 0, some request⟩
  /-- The request has arrived, but not the response. -/
  | unanswered : Possible ⟨.exited 0, none, .exited 0, some request⟩
  /-- The client reports success although not even its request has arrived. -/
  | unheard : Possible ⟨.exited 0, none, .exited 0, none⟩
  /-- The client has got no connection or no handshake. -/
  | refused : Possible ⟨.exited 1, none, .exited 0, none⟩
  /-- The server has no certificate and never listens. -/
  | noCertificate : Possible ⟨.exited 1, none, .exited 1, none⟩
  /-- The server has given up before it has taken the request. -/
  | clientKilled : Possible ⟨.killed, none, .exited 0, none⟩
  /-- The client has given up after its handshake, but before the server has its request. -/
  | serverKilled : Possible ⟨.exited 0, none, .killed, none⟩
  /-- The client has given up before it has taken the response. -/
  | answerKilled : Possible ⟨.exited 0, none, .killed, some request⟩
  /-- The client has given up in the handshake. -/
  | handshakeKilled : Possible ⟨.exited 1, none, .killed, none⟩

/-! ## Every outcome is possible -/

section Ends

variable {p : Processes}

theorem clientEnd_of_killed (hkilled : p.clientKilled = true) : p.clientEnd = some .killed :=
  if_pos hkilled

theorem serverEnd_of_killed (hkilled : p.serverKilled = true) : p.serverEnd = some .killed :=
  if_pos hkilled

theorem clientEnd_of_exited (halive : p.clientKilled = false) {code : Int32}
    (hphase : p.system.client.phase = .exited code) :
    p.clientEnd = some (.exited code) := by
  simp [Processes.clientEnd, halive, hphase]

theorem serverEnd_of_exited (halive : p.serverKilled = false) {code : Int32}
    (hphase : p.system.server.phase = .exited code) :
    p.serverEnd = some (.exited code) := by
  simp [Processes.serverEnd, halive, hphase]

/-- What a client that has ended says about the network. -/
theorem client_exit (hinv : ProcessInvariant p) {code : Int32}
    (hphase : p.system.client.phase = .exited code) :
    (code = 0 ∧ p.system.net.accepted = true) ∨
      (code = 1 ∧ p.system.server.shown = none) := by
  have hclient := hinv.system.client_at
  rw [hphase] at hclient
  rcases hclient with hdone | ⟨hcode, hnothing, -⟩
  · exact Or.inl hdone
  · refine Or.inr ⟨hcode, ?_⟩
    rw [hinv.system.server_shown, shownOf_eq_none_iff]
    have horder := p.system.net.requests.in_order
    rw [hnothing] at horder
    exact List.prefix_nil.mp horder

/-- What a server that has ended says about the network. -/
theorem server_exit (hinv : ProcessInvariant p) {code : Int32}
    (hphase : p.system.server.phase = .exited code) :
    code = 0 ∨ (code = 1 ∧ p.system.net.accepted = false ∧ p.system.server.shown = none) := by
  have hserver := hinv.system.server_at
  rw [hphase] at hserver
  rcases hserver.2 with hcode | ⟨hcode, -, haccepted, hnothing, -⟩
  · exact Or.inl hcode
  · refine Or.inr ⟨hcode, haccepted, ?_⟩
    rw [hinv.system.server_shown, shownOf_eq_none_iff]
    exact hnothing

/-- The server shows nothing or the whole request. -/
theorem server_shows_whole (hinv : ProcessInvariant p) :
    p.system.server.shown = none ∨ p.system.server.shown = some request := by
  rw [hinv.system.server_shown]
  rcases hinv.requests_whole with hnone | hwhole
  · exact Or.inl (shownOf_eq_none_iff.mpr hnone)
  · exact Or.inr (by rw [hwhole]; rfl)

/-- The client shows nothing or the whole response, and then the server has shown the
request. -/
theorem client_shows_whole (hinv : ProcessInvariant p) :
    p.system.client.shown = none ∨
      (p.system.client.shown = some response ∧ p.system.server.shown = some request) := by
  rw [hinv.system.client_shown]
  rcases hinv.responses_whole with hnone | hwhole
  · exact Or.inl (shownOf_eq_none_iff.mpr hnone)
  · have hshown : shownOf p.system.net.responses.delivered = some response := by
      rw [hwhole]
      rfl
    have hserver := (client_shows hinv.system (hinv.system.client_shown.trans hshown)).2.2
    exact Or.inr ⟨hshown, (server_shows_whole hinv).resolve_left hserver⟩

/-- A client that shows nothing where the server shows nothing. -/
theorem client_shows_nothing (hinv : ProcessInvariant p)
    (hserver : p.system.server.shown = none) : p.system.client.shown = none :=
  (client_shows_whole hinv).resolve_right fun hboth =>
    absurd (hserver.symm.trans hboth.2) (Option.some_ne_none _).symm

/-- How an end of the client is reached. -/
theorem clientEnd_cases {e : End} (hend : p.clientEnd = some e) :
    (p.clientKilled = true ∧ e = .killed) ∨
      (p.clientKilled = false ∧ ∃ code, p.system.client.phase = .exited code ∧
        e = .exited code) := by
  cases hkilled : p.clientKilled with
  | true =>
      rw [clientEnd_of_killed hkilled] at hend
      exact Or.inl ⟨rfl, (Option.some.inj hend).symm⟩
  | false =>
      rcases clientEnd_of_alive hkilled (Option.ne_none_iff_exists'.mpr ⟨e, hend⟩) with
        ⟨code, hphase⟩
      rw [clientEnd_of_exited hkilled hphase] at hend
      exact Or.inr ⟨rfl, code, hphase, (Option.some.inj hend).symm⟩

/-- How an end of the server is reached. -/
theorem serverEnd_cases {e : End} (hend : p.serverEnd = some e) :
    (p.serverKilled = true ∧ e = .killed) ∨
      (p.serverKilled = false ∧ ∃ code, p.system.server.phase = .exited code ∧
        e = .exited code) := by
  cases hkilled : p.serverKilled with
  | true =>
      rw [serverEnd_of_killed hkilled] at hend
      exact Or.inl ⟨rfl, (Option.some.inj hend).symm⟩
  | false =>
      rcases serverEnd_of_alive hkilled (Option.ne_none_iff_exists'.mpr ⟨e, hend⟩) with
        ⟨code, hphase⟩
      rw [serverEnd_of_exited hkilled hphase] at hend
      exact Or.inr ⟨rfl, code, hphase, (Option.some.inj hend).symm⟩

/-- Two processes that have ended have one of the listed outcomes. -/
theorem possible_of_ends (hinv : ProcessInvariant p) {o : Outcome} (hends : Ends p o) :
    Possible o := by
  rcases o with ⟨client, clientShown, server, serverShown⟩
  rcases hends with ⟨hclient, rfl, hserver, rfl⟩
  dsimp only at hclient hserver
  rcases clientEnd_cases hclient with ⟨hdead, rfl⟩ | ⟨-, code, hphase, rfl⟩
  · -- The client was killed: the server has exited and shown nothing.
    rcases hinv.client_killed hdead with ⟨halive, ⟨code, hphase⟩, haccepted, hshown⟩
    rw [serverEnd_of_exited halive hphase] at hserver
    cases hserver
    rcases server_exit hinv hphase with rfl | ⟨-, hnot, -⟩
    · rw [hshown, client_shows_nothing hinv hshown]
      exact .clientKilled
    · exact absurd (hnot.symm.trans haccepted) Bool.false_ne_true
  · rcases serverEnd_cases hserver with ⟨hdead, rfl⟩ | ⟨-, code', hphase', rfl⟩
    · -- The server was killed: the client has shown nothing.
      rw [(hinv.server_killed hdead).2.2.2]
      rcases client_exit hinv hphase with ⟨rfl, -⟩ | ⟨rfl, hshown⟩
      · rcases server_shows_whole hinv with hshown | hshown
        · exact hshown ▸ .serverKilled
        · exact hshown ▸ .answerKilled
      · exact hshown ▸ .handshakeKilled
    · rcases server_exit hinv hphase' with rfl | ⟨rfl, hnot, hshown⟩
      · rcases client_exit hinv hphase with ⟨rfl, -⟩ | ⟨rfl, hshown⟩
        · rcases client_shows_whole hinv with hnone | ⟨hboth, hshown⟩
          · rw [hnone]
            rcases server_shows_whole hinv with hshown | hshown
            · exact hshown ▸ .unheard
            · exact hshown ▸ .unanswered
          · rw [hboth, hshown]
            exact .complete
        · rw [hshown, client_shows_nothing hinv hshown]
          exact .refused
      · rcases client_exit hinv hphase with ⟨-, hdone⟩ | ⟨rfl, -⟩
        · exact absurd (hnot.symm.trans hdone) Bool.false_ne_true
        · rw [hshown, client_shows_nothing hinv hshown]
          exact .noCertificate

end Ends

/-! ## Every possible outcome occurs -/

section Runs

variable (clientBuffer serverBuffer : Buffer 256)

/-- The calls up to a request on its way, with both handshakes made. -/
def opening : List ProcessEvent :=
  [.call (.server (.loadCertificate true)), .call (.server (.listen true)),
   .call (.client (.connect true)), .call (.server (.accept true)),
   .call (.client (.sslConnect true)), .call (.server (.sslAccept true)),
   .call (.client (.sslWrite true))]

/-- Both processes after the server has shown the request. -/
def asked : Processes where
  system :=
    { client := { Client.start clientBuffer with phase := .reading }
      server := { phase := .writing, buffer := serverBuffer, shown := some request }
      net :=
        { listening := true
          connected := true
          accepted := true
          requests := (Channel.empty.sendAll request).deliverMany 33
          responses := Channel.empty } }
  clientKilled := false
  serverKilled := false

/-- Both processes after the client has shown the response, too. -/
def answered : Processes where
  system :=
    { client := { phase := .closing, buffer := clientBuffer, shown := some response }
      server := { phase := .exited 0, buffer := serverBuffer, shown := some request }
      net :=
        { listening := false
          connected := true
          accepted := true
          requests := (Channel.empty.sendAll request).deliverMany 33
          responses := (Channel.empty.sendAll response).deliverMany 30 } }
  clientKilled := false
  serverKilled := false

/-- A text without a NUL is shown whole. -/
theorem receive_whole {φ : Type} (e : Endpoint φ) (silent shown : φ) (faulted : Fault → φ)
    {text : List UInt8} (hfree : ∀ b ∈ text, b ≠ 0) (hsome : text ≠ [])
    (hlen : text.length ≤ 255) :
    ∃ buffer, e.receive silent shown faulted text =
      { phase := shown, buffer := buffer, shown := some text } := by
  rcases e.receive_eq silent shown faulted hsome hlen with ⟨buffer, hreceive⟩
  exact ⟨buffer, hreceive.trans (by rw [takeWhile_of_front hfree (List.prefix_refl _)])⟩

theorem asked_run :
    ∃ buffer, run Processes.step (Processes.initial clientBuffer serverBuffer)
      (opening ++ [.call (.server (.sslRead 33))]) = some (asked clientBuffer buffer) := by
  rcases receive_whole { Server.start serverBuffer with phase := .reading }
    ServerPhase.closing ServerPhase.writing ServerPhase.faulted request_free
    (List.cons_ne_nil _ _) (by decide) with ⟨buffer, hreceive⟩
  refine ⟨buffer, ?_⟩
  rw [asked, ← hreceive]
  rfl

theorem answered_run :
    ∃ buffer, run Processes.step (asked clientBuffer serverBuffer)
      [.call (.server (.sslWrite true)), .call (.server .finish),
       .call (.client (.sslRead 30))] = some (answered buffer serverBuffer) := by
  rcases receive_whole { Client.start clientBuffer with phase := .reading }
    ClientPhase.closing ClientPhase.closing ClientPhase.faulted response_free
    (List.cons_ne_nil _ _) (by decide) with ⟨buffer, hreceive⟩
  refine ⟨buffer, ?_⟩
  rw [answered, ← hreceive]
  rfl

/-- What can follow on a request that the server has shown. -/
theorem ends_after_asked (rest : List ProcessEvent) {o : Outcome}
    (hrest : ∀ buffer, ∃ p, run Processes.step (asked clientBuffer buffer) rest = some p ∧
      Ends p o) :
    ∃ events p, run Processes.step (Processes.initial clientBuffer serverBuffer) events =
      some p ∧ Ends p o := by
  rcases asked_run clientBuffer serverBuffer with ⟨buffer, hasked⟩
  rcases hrest buffer with ⟨p, hrun, hends⟩
  exact ⟨_, p, run_append.mpr ⟨_, hasked, hrun⟩, hends⟩

/-- Every listed outcome is that of some run. -/
theorem ends_of_possible {o : Outcome} (hpossible : Possible o) :
    ∃ events p, run Processes.step (Processes.initial clientBuffer serverBuffer) events =
      some p ∧ Ends p o := by
  cases hpossible with
  | complete =>
      refine ends_after_asked clientBuffer serverBuffer
        ([.call (.server (.sslWrite true)), .call (.server .finish),
          .call (.client (.sslRead 30))] ++ [.call (.client .finish)]) fun buffer => ?_
      rcases answered_run clientBuffer buffer with ⟨shown, hanswered⟩
      exact ⟨_, run_append.mpr ⟨_, hanswered, rfl⟩, rfl, rfl, rfl, rfl⟩
  | unanswered =>
      exact ends_after_asked clientBuffer serverBuffer
        [.call (.server (.sslWrite false)), .call (.server .finish),
          .call (.client (.sslRead 0)), .call (.client .finish)]
        fun _ => ⟨_, rfl, rfl, rfl, rfl, rfl⟩
  | unheard =>
      exact ⟨opening ++ [.call (.server (.sslRead 0)), .call (.server .finish),
        .call (.client (.sslRead 0)), .call (.client .finish)], _, rfl, rfl, rfl, rfl, rfl⟩
  | refused =>
      exact ⟨[.call (.server (.loadCertificate true)), .call (.server (.listen true)),
        .call (.client (.connect true)), .call (.server (.accept true)),
        .call (.server (.sslAccept false)), .call (.server .finish),
        .call (.client (.sslConnect false))], _, rfl, rfl, rfl, rfl, rfl⟩
  | noCertificate =>
      exact ⟨[.call (.client (.connect false)), .call (.server (.loadCertificate false))], _,
        rfl, rfl, rfl, rfl, rfl⟩
  | clientKilled =>
      -- The server ends while the client thinks the handshake is complete.
      exact ⟨[.call (.server (.loadCertificate true)), .call (.server (.listen true)),
        .call (.client (.connect true)), .call (.server (.accept true)),
        .call (.client (.sslConnect true)), .call (.server (.sslAccept false)),
        .call (.server .finish), .clientKilled], _, rfl, rfl, rfl, rfl, rfl⟩
  | serverKilled =>
      -- The client ends while the server still writes in its handshake.
      exact ⟨[.call (.server (.loadCertificate true)), .call (.server (.listen true)),
        .call (.client (.connect true)), .call (.server (.accept true)),
        .call (.client (.sslConnect true)), .call (.client (.sslWrite true)),
        .call (.client (.sslRead 0)), .call (.client .finish), .serverKilled], _, rfl, rfl,
        rfl, rfl, rfl⟩
  | answerKilled =>
      exact ends_after_asked clientBuffer serverBuffer
        [.call (.client (.sslRead 0)), .call (.client .finish),
          .call (.server (.sslWrite true)), .serverKilled]
        fun _ => ⟨_, rfl, rfl, rfl, rfl, rfl⟩
  | handshakeKilled =>
      exact ⟨[.call (.server (.loadCertificate true)), .call (.server (.listen true)),
        .call (.client (.connect true)), .call (.server (.accept true)),
        .call (.client (.sslConnect false)), .serverKilled], _, rfl, rfl, rfl, rfl, rfl⟩

end Runs

/-- Whatever is on their stacks, the two processes can end with exactly the nine listed
outcomes.  A text is shown whole or not at all, and the response only after the request; a
process is only killed after the other one has ended without having shown its text, so that
never both are.  A client that ends with 0, and reports that the secure communication is
complete, may have shown nothing and may not even have been heard. -/
theorem outcomes_exactly (clientBuffer serverBuffer : Buffer 256) (o : Outcome) :
    (∃ events p,
      run Processes.step (Processes.initial clientBuffer serverBuffer) events = some p ∧
        Ends p o) ↔
      Possible o := by
  constructor
  · rintro ⟨events, p, hrun, hends⟩
    exact possible_of_ends (process_invariant hrun) hends
  · exact ends_of_possible clientBuffer serverBuffer

end AutomotiveSecurity.Tls
