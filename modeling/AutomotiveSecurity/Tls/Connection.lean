import AutomotiveSecurity.Foundations.OrderedChannel
import AutomotiveSecurity.Tls.Endpoint

/-!
# A client, a server and the connection between them

Both programs run at the same time, one library call after the other, in any order.  What
the library and the network do is part of the event: whether a call succeeds, and how many
of the pending bytes one {lit}`SSL_read` returns.  A TLS connection is an ordered channel of
bytes in each direction.

Main results:

- Theorems {lit}`step_client` and {lit}`step_server`: a step is an enabled call with its
  effect.
- Theorems {lit}`requests_refine_channel` and {lit}`responses_refine_channel`: each direction
  of a run is a run of the ordered channel.

Current gaps:

- The records and the cryptography of TLS are not modelled: what a party writes arrives
  unaltered or not at all.
- One client meets one server; other programs on the port are not modelled.
-/

namespace AutomotiveSecurity.Tls

open Memory OrderedChannel Runs

/-! ## States and events -/

/-- What lies between the two programs: whether the server listens on the port, the client
has connected to it and the server has accepted, and the bytes in each direction. -/
structure Network where
  listening : Bool
  connected : Bool
  accepted : Bool
  requests : Channel UInt8
  responses : Channel UInt8

/-- Both programs and the network. -/
structure State where
  client : Client
  server : Server
  net : Network

/-- Before either program has made a call. -/
def initial (clientBuffer serverBuffer : Buffer 256) : State where
  client := Client.start clientBuffer
  server := Server.start serverBuffer
  net :=
    { listening := false
      connected := false
      accepted := false
      requests := Channel.empty
      responses := Channel.empty }

/-- A call of the client with its outcome; a count of 0 is a failing {lit}`SSL_read`. -/
inductive ClientCall
  | connect (succeeds : Bool)
  | sslConnect (succeeds : Bool)
  | sslWrite (succeeds : Bool)
  | sslRead (count : Nat)
  | finish
deriving DecidableEq, Repr

/-- A call of the server with its outcome. -/
inductive ServerCall
  | loadCertificate (succeeds : Bool)
  | listen (succeeds : Bool)
  | accept (succeeds : Bool)
  | sslAccept (succeeds : Bool)
  | sslRead (count : Nat)
  | sslWrite (succeeds : Bool)
  | finish
deriving DecidableEq, Repr

/-- One of the programs makes its next call. -/
inductive Event
  | client (call : ClientCall)
  | server (call : ServerCall)
deriving DecidableEq, Repr

/-! ## Steps -/

/-- The client is at the call, and the outcome is one the call can have: a connection needs
a listening server, a handshake one that has accepted, and at most 255 of the pending bytes
can be read. -/
def ClientEnabled (s : State) : ClientCall → Prop
  | .connect succeeds =>
      s.client.phase = .connecting ∧ (succeeds = true → s.net.listening = true)
  | .sslConnect succeeds =>
      s.client.phase = .handshaking ∧ (succeeds = true → s.net.accepted = true)
  | .sslWrite _ => s.client.phase = .writing
  | .sslRead count =>
      s.client.phase = .reading ∧ count ≤ 255 ∧ count ≤ s.net.responses.pending.length
  | .finish => s.client.phase = .closing

instance (s : State) : ∀ call, Decidable (ClientEnabled s call)
  | .connect _ | .sslConnect _ | .sslRead _ => inferInstanceAs (Decidable (_ ∧ _))
  | .sslWrite _ | .finish => inferInstanceAs (Decidable (_ = _))

/-- The same for the server. -/
def ServerEnabled (s : State) : ServerCall → Prop
  | .loadCertificate _ => s.server.phase = .loading
  | .listen _ => s.server.phase = .listening
  | .accept succeeds =>
      s.server.phase = .accepting ∧ (succeeds = true → s.net.connected = true)
  | .sslAccept succeeds =>
      s.server.phase = .handshaking ∧ (succeeds = true → s.net.accepted = true)
  | .sslRead count =>
      s.server.phase = .reading ∧ count ≤ 255 ∧ count ≤ s.net.requests.pending.length
  | .sslWrite _ => s.server.phase = .writing
  | .finish => s.server.phase = .closing

instance (s : State) : ∀ call, Decidable (ServerEnabled s call)
  | .accept _ | .sslAccept _ | .sslRead _ => inferInstanceAs (Decidable (_ ∧ _))
  | .loadCertificate _ | .listen _ | .sslWrite _ | .finish =>
      inferInstanceAs (Decidable (_ = _))

/-- The effect of a call of the client. -/
def clientNext (s : State) : ClientCall → State
  | .connect succeeds =>
      { s with
        client := s.client.connect succeeds
        net := { s.net with connected := succeeds } }
  | .sslConnect succeeds => { s with client := s.client.sslConnect succeeds }
  | .sslWrite succeeds =>
      { s with
        client := s.client.sslWrite
        net :=
          { s.net with
            requests := s.net.requests.sendAll (if succeeds then request else []) } }
  | .sslRead count =>
      { s with
        client := s.client.sslRead (s.net.responses.pending.take count)
        net := { s.net with responses := s.net.responses.deliverMany count } }
  | .finish => { s with client := s.client.finish }

/-- The effect of a call of the server.  Its socket is closed when it ends. -/
def serverNext (s : State) : ServerCall → State
  | .loadCertificate succeeds => { s with server := s.server.loadCertificate succeeds }
  | .listen succeeds =>
      { s with
        server := s.server.listen
        net := { s.net with listening := succeeds } }
  | .accept succeeds =>
      { s with
        server := s.server.accept
        net := { s.net with accepted := succeeds } }
  | .sslAccept succeeds => { s with server := s.server.sslAccept succeeds }
  | .sslRead count =>
      { s with
        server := s.server.sslRead (s.net.requests.pending.take count)
        net := { s.net with requests := s.net.requests.deliverMany count } }
  | .sslWrite succeeds =>
      { s with
        server := s.server.sslWrite
        net :=
          { s.net with
            responses := s.net.responses.sendAll (if succeeds then response else []) } }
  | .finish =>
      { s with
        server := s.server.finish
        net := { s.net with listening := false } }

/-- One step of the system. -/
def step (s : State) : Event → Option State
  | .client call => if ClientEnabled s call then some (clientNext s call) else none
  | .server call => if ServerEnabled s call then some (serverNext s call) else none

section Steps

variable {s t : State}

theorem step_client {call : ClientCall} :
    step s (.client call) = some t ↔ ClientEnabled s call ∧ clientNext s call = t := by
  simp only [step, Option.ite_none_right_eq_some, Option.some.injEq]

theorem step_server {call : ServerCall} :
    step s (.server call) = some t ↔ ServerEnabled s call ∧ serverNext s call = t := by
  simp only [step, Option.ite_none_right_eq_some, Option.some.injEq]

end Steps

/-! ## Each direction is an ordered channel -/

/-- Every step sends and delivers requests as the ordered channel does. -/
theorem requests_refine_channel :
    Simulation step (fun _ _ => True) (OrderedChannel.step (μ := UInt8))
      (fun s c => s.net.requests = c) where
  match_step := by
    rintro s e t _ rfl - hstep
    cases e with
    | client call =>
        rcases step_client.mp hstep with ⟨-, rfl⟩
        cases call with
        | sslWrite succeeds => exact ⟨_, _, sendAll_run _ _, rfl⟩
        | connect succeeds | sslConnect succeeds | sslRead count | finish =>
            exact ⟨[], _, run_nil, rfl⟩
    | server call =>
        rcases step_server.mp hstep with ⟨henabled, rfl⟩
        cases call with
        | sslRead count => exact ⟨_, _, deliverMany_run _ henabled.2.2, rfl⟩
        | loadCertificate succeeds | listen succeeds | accept succeeds | sslAccept succeeds
        | sslWrite succeeds | finish =>
            exact ⟨[], _, run_nil, rfl⟩

/-- The same for the responses. -/
theorem responses_refine_channel :
    Simulation step (fun _ _ => True) (OrderedChannel.step (μ := UInt8))
      (fun s c => s.net.responses = c) where
  match_step := by
    rintro s e t _ rfl - hstep
    cases e with
    | client call =>
        rcases step_client.mp hstep with ⟨henabled, rfl⟩
        cases call with
        | sslRead count => exact ⟨_, _, deliverMany_run _ henabled.2.2, rfl⟩
        | connect succeeds | sslConnect succeeds | sslWrite succeeds | finish =>
            exact ⟨[], _, run_nil, rfl⟩
    | server call =>
        rcases step_server.mp hstep with ⟨-, rfl⟩
        cases call with
        | sslWrite succeeds => exact ⟨_, _, sendAll_run _ _, rfl⟩
        | loadCertificate succeeds | listen succeeds | accept succeeds | sslAccept succeeds
        | sslRead count | finish =>
            exact ⟨[], _, run_nil, rfl⟩

end AutomotiveSecurity.Tls
