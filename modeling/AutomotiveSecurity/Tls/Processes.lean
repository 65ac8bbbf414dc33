import AutomotiveSecurity.Tls.Exchange

/-!
# The two programs as processes

Neither program ignores {lit}`SIGPIPE`, so a process dies when it writes to a connection that
the other process has reset.  That one resets it when it ends and closes its socket before it
has taken everything that was sent to it; a process that has shown the text of the other has
taken everything.  Every text is sent with one {lit}`SSL_write`, in one record, so that
{lit}`SSL_read` returns all of it or nothing.

Main results:

- Theorem {lit}`process_invariant`: what holds in every reachable state of the two processes.

Current gaps:

- Signals other than {lit}`SIGPIPE` are left out, and so is a library that cannot even make
  the contexts and connections whose pointers the programs do not check.
-/

namespace AutomotiveSecurity.Tls

open Memory OrderedChannel Runs

/-! ## States and events -/

/-- Both programs and the network, and which of the processes have been killed. -/
structure Processes where
  system : State
  clientKilled : Bool
  serverKilled : Bool

/-- Before either program has made a call. -/
def Processes.initial (clientBuffer serverBuffer : Buffer 256) : Processes where
  system := Tls.initial clientBuffer serverBuffer
  clientKilled := false
  serverKilled := false

/-- One of the programs makes its next call, or dies in it. -/
inductive ProcessEvent
  | call (event : Event)
  | clientKilled
  | serverKilled
deriving DecidableEq, Repr

/-- How a process has ended. -/
inductive End
  | exited (code : Int32)
  | killed
deriving DecidableEq, Repr

/-- The end of the client, if it has ended. -/
def Processes.clientEnd (p : Processes) : Option End :=
  if p.clientKilled then some .killed
  else
    match p.system.client.phase with
    | .exited code => some (.exited code)
    | _ => none

/-- The end of the server, if it has ended. -/
def Processes.serverEnd (p : Processes) : Option End :=
  if p.serverKilled then some .killed
  else
    match p.system.server.phase with
    | .exited code => some (.exited code)
    | _ => none

/-- The calls in which the client writes to the connection. -/
def ClientPhase.writes : ClientPhase → Bool
  | .handshaking | .writing | .closing => true
  | .connecting | .reading | .exited _ | .faulted _ => false

/-- The calls in which the server writes to the connection. -/
def ServerPhase.writes : ServerPhase → Bool
  | .handshaking | .writing | .closing => true
  | .loading | .listening | .accepting | .reading | .exited _ | .faulted _ => false

/-- A call of {lit}`SSL_read` fails or returns the whole record. -/
def ReadsRecord (s : State) : Event → Prop
  | .client (.sslRead count) => count = 0 ∨ count = s.net.responses.pending.length
  | .server (.sslRead count) => count = 0 ∨ count = s.net.requests.pending.length
  | _ => True

instance (s : State) : ∀ e, Decidable (ReadsRecord s e)
  | .client (.sslRead _) | .server (.sslRead _) => inferInstanceAs (Decidable (_ ∨ _))
  | .client (.connect _) | .client (.sslConnect _) | .client (.sslWrite _)
  | .client .finish | .server (.loadCertificate _) | .server (.listen _)
  | .server (.accept _) | .server (.sslAccept _) | .server (.sslWrite _)
  | .server .finish => inferInstanceAs (Decidable True)

/-- The process that makes the call lives. -/
def Processes.Lives (p : Processes) : Event → Prop
  | .client _ => p.clientKilled = false
  | .server _ => p.serverKilled = false

instance (p : Processes) : ∀ e, Decidable (p.Lives e)
  | .client _ | .server _ => inferInstanceAs (Decidable (_ = _))

/-- The client writes to a connection that the server has reset. -/
def Processes.ClientBreaks (p : Processes) : Prop :=
  p.clientKilled = false ∧ p.system.client.phase.writes = true ∧
    p.system.net.accepted = true ∧ p.serverEnd ≠ none ∧ p.system.server.shown = none

instance (p : Processes) : Decidable p.ClientBreaks :=
  inferInstanceAs (Decidable (_ ∧ _))

/-- The server writes to a connection that the client has reset. -/
def Processes.ServerBreaks (p : Processes) : Prop :=
  p.serverKilled = false ∧ p.system.server.phase.writes = true ∧
    p.system.net.accepted = true ∧ p.clientEnd ≠ none ∧ p.system.client.shown = none

instance (p : Processes) : Decidable p.ServerBreaks :=
  inferInstanceAs (Decidable (_ ∧ _))

/-- One step of the processes.  The socket of a killed server is closed, too. -/
def Processes.step (p : Processes) : ProcessEvent → Option Processes
  | .call event =>
      if p.Lives event ∧ ReadsRecord p.system event then
        (Tls.step p.system event).map fun system => { p with system := system }
      else none
  | .clientKilled => if p.ClientBreaks then some { p with clientKilled := true } else none
  | .serverKilled =>
      if p.ServerBreaks then
        some
          { p with
            serverKilled := true
            system :=
              { p.system with net := { p.system.net with listening := false } } }
      else none

section Steps

variable {p q : Processes}

theorem processes_step_call {event : Event} :
    p.step (.call event) = some q ↔
      p.Lives event ∧ ReadsRecord p.system event ∧
        ∃ system, step p.system event = some system ∧ { p with system := system } = q := by
  simp only [Processes.step, Option.ite_none_right_eq_some, Option.map_eq_some_iff, and_assoc]

theorem processes_step_clientKilled :
    p.step .clientKilled = some q ↔ p.ClientBreaks ∧ { p with clientKilled := true } = q := by
  simp only [Processes.step, Option.ite_none_right_eq_some, Option.some.injEq]

theorem processes_step_serverKilled :
    p.step .serverKilled = some q ↔
      p.ServerBreaks ∧
        { p with
          serverKilled := true
          system :=
            { p.system with net := { p.system.net with listening := false } } } = q := by
  simp only [Processes.step, Option.ite_none_right_eq_some, Option.some.injEq]

end Steps

section Ends

variable {p : Processes}

theorem clientEnd_of_alive (halive : p.clientKilled = false) (hended : p.clientEnd ≠ none) :
    ∃ code, p.system.client.phase = .exited code := by
  cases hphase : p.system.client.phase with
  | exited code => exact ⟨code, rfl⟩
  | connecting | handshaking | writing | reading | closing | faulted fault =>
      simp [Processes.clientEnd, halive, hphase] at hended

theorem serverEnd_of_alive (halive : p.serverKilled = false) (hended : p.serverEnd ≠ none) :
    ∃ code, p.system.server.phase = .exited code := by
  cases hphase : p.system.server.phase with
  | exited code => exact ⟨code, rfl⟩
  | loading | listening | accepting | handshaking | reading | writing | closing
  | faulted fault =>
      simp [Processes.serverEnd, halive, hphase] at hended

/-- A client that has ended makes no further call. -/
theorem client_not_enabled {s : State} {code : Int32} (hphase : s.client.phase = .exited code)
    (call : ClientCall) : ¬ClientEnabled s call := by
  cases call <;> simp [ClientEnabled, hphase]

/-- A server that has ended makes no further call. -/
theorem server_not_enabled {s : State} {code : Int32} (hphase : s.server.phase = .exited code)
    (call : ServerCall) : ¬ServerEnabled s call := by
  cases call <;> simp [ServerEnabled, hphase]

end Ends

/-! ## The invariant -/

/-- What holds in every reachable state.  A process is only killed after the other one has
ended, so that nothing happens any more afterwards. -/
structure ProcessInvariant (p : Processes) : Prop where
  system : Invariant p.system
  requests_whole : p.system.net.requests.delivered = [] ∨
    p.system.net.requests.delivered = request
  responses_whole : p.system.net.responses.delivered = [] ∨
    p.system.net.responses.delivered = response
  client_killed : p.clientKilled = true →
    p.serverKilled = false ∧ (∃ code, p.system.server.phase = .exited code) ∧
      p.system.net.accepted = true ∧ p.system.server.shown = none
  server_killed : p.serverKilled = true →
    p.clientKilled = false ∧ (∃ code, p.system.client.phase = .exited code) ∧
      p.system.net.accepted = true ∧ p.system.client.shown = none

theorem initial_processInvariant (clientBuffer serverBuffer : Buffer 256) :
    ProcessInvariant (Processes.initial clientBuffer serverBuffer) where
  system := initial_invariant clientBuffer serverBuffer
  requests_whole := Or.inl rfl
  responses_whole := Or.inl rfl
  client_killed := fun h => absurd h Bool.false_ne_true
  server_killed := fun h => absurd h Bool.false_ne_true

section Step

variable {p q : Processes}

/-- A call is only made while both processes live. -/
theorem alive_of_call (hinv : ProcessInvariant p) {event : Event}
    (hlives : p.Lives event) {system : State} (hstep : step p.system event = some system) :
    p.clientKilled = false ∧ p.serverKilled = false := by
  cases event with
  | client call =>
      refine ⟨hlives, ?_⟩
      by_contra hkilled
      rcases hinv.server_killed (Bool.not_eq_false _ ▸ hkilled) with ⟨-, ⟨code, hphase⟩, -⟩
      exact client_not_enabled hphase call (step_client.mp hstep).1
  | server call =>
      refine ⟨?_, hlives⟩
      by_contra hkilled
      rcases hinv.client_killed (Bool.not_eq_false _ ▸ hkilled) with ⟨-, ⟨code, hphase⟩, -⟩
      exact server_not_enabled hphase call (step_server.mp hstep).1

/-- The first reading of a channel delivers nothing or all that was sent. -/
theorem delivered_whole {c : Channel UInt8} {text : List UInt8}
    (hsent : c.sent = [] ∨ c.sent = text) (hdelivered : c.delivered = []) {count : Nat}
    (hcount : count = 0 ∨ count = c.pending.length) :
    (c.deliverMany count).delivered = [] ∨ (c.deliverMany count).delivered = text := by
  rcases hcount with rfl | rfl
  · exact Or.inl (by simp [Channel.deliverMany, hdelivered])
  · rw [c.delivered_deliverMany le_rfl]
    exact hsent

/-- What has been received of the requests is nothing or the whole request. -/
theorem requests_whole_step {s t : State} {event : Event} (hinv : Invariant s)
    (hwhole : s.net.requests.delivered = [] ∨ s.net.requests.delivered = request)
    (hrecord : ReadsRecord s event) (hstep : step s event = some t) :
    t.net.requests.delivered = [] ∨ t.net.requests.delivered = request := by
  cases event with
  | client call =>
      rcases step_client.mp hstep with ⟨-, rfl⟩
      cases call <;> exact hwhole
  | server call =>
      rcases step_server.mp hstep with ⟨henabled, rfl⟩
      cases call with
      | sslRead count =>
          have hserver := hinv.server_at
          rw [henabled.1] at hserver
          exact delivered_whole hinv.requests_sent hserver.1 hrecord
      | loadCertificate succeeds | listen succeeds | accept succeeds | sslAccept succeeds
      | sslWrite succeeds | finish => exact hwhole

/-- What has been received of the responses is nothing or the whole response. -/
theorem responses_whole_step {s t : State} {event : Event} (hinv : Invariant s)
    (hwhole : s.net.responses.delivered = [] ∨ s.net.responses.delivered = response)
    (hrecord : ReadsRecord s event) (hstep : step s event = some t) :
    t.net.responses.delivered = [] ∨ t.net.responses.delivered = response := by
  cases event with
  | client call =>
      rcases step_client.mp hstep with ⟨henabled, rfl⟩
      cases call with
      | sslRead count =>
          have hclient := hinv.client_at
          rw [henabled.1] at hclient
          exact delivered_whole hinv.responses_sent hclient.2 hrecord
      | connect succeeds | sslConnect succeeds | sslWrite succeeds | finish => exact hwhole
  | server call =>
      rcases step_server.mp hstep with ⟨-, rfl⟩
      cases call <;> exact hwhole

/-- The network without its listening socket, as the server does not listen any more once it
has accepted. -/
theorem Invariant.stop_listening {s : State} (hinv : Invariant s)
    (hwrites : s.server.phase.writes = true) :
    Invariant { s with net := { s.net with listening := false } } := by
  have hserver := hinv.server_at
  refine { hinv with client_at := ?_, server_at := ?_ }
  · have hclient := hinv.client_at
    cases hphase : s.client.phase <;> rw [hphase] at hclient <;> exact hclient
  · cases hphase : s.server.phase with
    | handshaking | writing | closing =>
        rw [hphase] at hserver
        exact hserver
    | loading | listening | accepting | reading | exited code | faulted fault =>
        rw [hphase] at hwrites
        contradiction

/-- Every event keeps the invariant. -/
theorem processStep_invariant {event : ProcessEvent} (hinv : ProcessInvariant p)
    (hstep : p.step event = some q) : ProcessInvariant q := by
  cases event with
  | call event =>
      rcases processes_step_call.mp hstep with ⟨hlives, hrecord, system, hsystem, rfl⟩
      rcases alive_of_call hinv hlives hsystem with ⟨hclient, hserver⟩
      exact
        { system := step_invariant hinv.system hsystem
          requests_whole :=
            requests_whole_step hinv.system hinv.requests_whole hrecord hsystem
          responses_whole :=
            responses_whole_step hinv.system hinv.responses_whole hrecord hsystem
          client_killed := fun hkilled => absurd (hkilled.symm.trans hclient) (by decide)
          server_killed := fun hkilled => absurd (hkilled.symm.trans hserver) (by decide) }
  | clientKilled =>
      rcases processes_step_clientKilled.mp hstep with
        ⟨⟨-, hwrites, haccepted, hended, hshown⟩, rfl⟩
      -- The server was not killed: then the client would have ended.
      have hserver : p.serverKilled = false := by
        by_contra hkilled
        rcases hinv.server_killed (Bool.not_eq_false _ ▸ hkilled) with ⟨-, ⟨code, hphase⟩, -⟩
        rw [hphase] at hwrites
        contradiction
      exact
        { hinv with
          client_killed := fun _ =>
            ⟨hserver, serverEnd_of_alive hserver hended, haccepted, hshown⟩
          server_killed := fun hkilled => absurd (hkilled.symm.trans hserver) (by decide) }
  | serverKilled =>
      rcases processes_step_serverKilled.mp hstep with
        ⟨⟨-, hwrites, haccepted, hended, hshown⟩, rfl⟩
      have hclient : p.clientKilled = false := by
        by_contra hkilled
        rcases hinv.client_killed (Bool.not_eq_false _ ▸ hkilled) with ⟨-, ⟨code, hphase⟩, -⟩
        rw [hphase] at hwrites
        contradiction
      exact
        { hinv with
          system := hinv.system.stop_listening hwrites
          client_killed := fun hkilled => absurd (hkilled.symm.trans hclient) (by decide)
          server_killed := fun _ =>
            ⟨hclient, clientEnd_of_alive hclient hended, haccepted, hshown⟩ }

end Step

/-- The invariant holds in every reachable state of the two processes. -/
theorem process_invariant {clientBuffer serverBuffer : Buffer 256}
    {events : List ProcessEvent} {p : Processes}
    (hrun : run Processes.step (Processes.initial clientBuffer serverBuffer) events = some p) :
    ProcessInvariant p :=
  run_invariant (P := fun _ _ => True)
    (fun _ _ _ hinv _ hstep => processStep_invariant hinv hstep)
    (initial_processInvariant clientBuffer serverBuffer)
    (along_of_forall fun _ _ _ => trivial) hrun

end AutomotiveSecurity.Tls
