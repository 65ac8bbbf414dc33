import AutomotiveSecurity.Tls.Exchange

/-!
# Runs without failing calls

What is left to chance when every call succeeds that can: the order in which the two
programs run.

Main results:

- Theorem {lit}`fault_free_runs_complete`: such a run is short and ends with the complete
  exchange, unless the client has called before the server listened.

Current gaps:

- A text arrives in one record.
-/

namespace AutomotiveSecurity.Tls

open Memory OrderedChannel Prefix Runs

/-! ## Length of runs -/

/-- How many calls the client has at most before it. -/
def ClientPhase.rank : ClientPhase → Nat
  | .connecting => 5
  | .handshaking => 4
  | .writing => 3
  | .reading => 2
  | .closing => 1
  | .exited _ | .faulted _ => 0

/-- How many calls the server has at most before it. -/
def ServerPhase.rank : ServerPhase → Nat
  | .loading => 7
  | .listening => 6
  | .accepting => 5
  | .handshaking => 4
  | .reading => 3
  | .writing => 2
  | .closing => 1
  | .exited _ | .faulted _ => 0

/-- How many calls are left in all. -/
def State.rank (s : State) : Nat :=
  s.client.phase.rank + s.server.phase.rank

theorem receive_rank {φ : Type} (rank : φ → Nat) {e : Endpoint φ} {silent shown : φ}
    {faulted : Fault → φ} {n : Nat} (hsilent : rank silent < n) (hshown : rank shown < n)
    (hfaulted : ∀ fault, rank (faulted fault) < n) (received : List UInt8) :
    rank (e.receive silent shown faulted received).phase < n := by
  unfold Endpoint.receive
  split
  · exact hsilent
  · split
    · exact hshown
    · exact hfaulted _

theorem client_rank {s : State} {call : ClientCall} (henabled : ClientEnabled s call) :
    (clientNext s call).client.phase.rank < s.client.phase.rank := by
  cases call with
  | connect succeeds =>
      rw [henabled.1]
      cases succeeds <;> simp [clientNext, Client.connect, ClientPhase.rank]
  | sslConnect succeeds =>
      rw [henabled.1]
      cases succeeds <;> simp [clientNext, Client.sslConnect, ClientPhase.rank]
  | sslWrite succeeds =>
      rw [show s.client.phase = .writing from henabled]
      exact Nat.lt_succ_self 2
  | sslRead count =>
      rw [henabled.1]
      exact receive_rank ClientPhase.rank (Nat.lt_succ_self 1) (Nat.lt_succ_self 1)
        (fun _ => Nat.succ_pos 1) _
  | finish =>
      rw [show s.client.phase = .closing from henabled]
      exact Nat.lt_succ_self 0

theorem server_rank {s : State} {call : ServerCall} (henabled : ServerEnabled s call) :
    (serverNext s call).server.phase.rank < s.server.phase.rank := by
  cases call with
  | loadCertificate succeeds =>
      rw [show s.server.phase = .loading from henabled]
      cases succeeds <;> simp [serverNext, Server.loadCertificate, ServerPhase.rank]
  | listen succeeds =>
      rw [show s.server.phase = .listening from henabled]
      exact Nat.lt_succ_self 5
  | accept succeeds =>
      rw [henabled.1]
      exact Nat.lt_succ_self 4
  | sslAccept succeeds =>
      rw [henabled.1]
      cases succeeds <;> simp [serverNext, Server.sslAccept, ServerPhase.rank]
  | sslRead count =>
      rw [henabled.1]
      exact receive_rank ServerPhase.rank (Nat.lt_of_succ_lt (Nat.lt_succ_self 2))
        (Nat.lt_succ_self 2) (fun _ => Nat.succ_pos 2) _
  | sslWrite succeeds =>
      rw [show s.server.phase = .writing from henabled]
      exact Nat.lt_succ_self 1
  | finish =>
      rw [show s.server.phase = .closing from henabled]
      exact Nat.lt_succ_self 0

/-- No run has more than twelve steps. -/
theorem run_length_le_twelve {clientBuffer serverBuffer : Buffer 256} {events : List Event}
    {s : State} (hrun : run step (initial clientBuffer serverBuffer) events = some s) :
    events.length ≤ 12 := by
  have hbound := run_length_le State.rank ?_ hrun
  · have hstart : (initial clientBuffer serverBuffer).rank = 12 := rfl
    omega
  · intro s e t hstep
    cases e with
    | client call =>
        rcases step_client.mp hstep with ⟨henabled, rfl⟩
        have hserver : (clientNext s call).server = s.server := by
          cases call <;> rfl
        have hlower := client_rank henabled
        simp only [State.rank, hserver]
        omega
    | server call =>
        rcases step_server.mp hstep with ⟨henabled, rfl⟩
        have hclient : (serverNext s call).client = s.client := by
          cases call <;> rfl
        have hlower := server_rank henabled
        simp only [State.rank, hclient]
        omega

/-! ## Runs without failing calls -/

/-- A call fails only where it has to: {lit}`connect` while nobody listens, and
{lit}`SSL_read` when nothing is pending and the other end is gone.  What is pending arrives
in one record. -/
def FaultFree (s : State) : Event → Prop
  | .client (.connect succeeds) => succeeds = s.net.listening
  | .client (.sslRead count) =>
      count = min 255 s.net.responses.pending.length ∧
        (count = 0 → s.server.phase.rank = 0)
  | .server (.sslRead count) =>
      count = min 255 s.net.requests.pending.length ∧
        (count = 0 → s.client.phase.rank = 0)
  | .client (.sslConnect succeeds) | .client (.sslWrite succeeds)
  | .server (.loadCertificate succeeds) | .server (.listen succeeds)
  | .server (.accept succeeds) | .server (.sslAccept succeeds)
  | .server (.sslWrite succeeds) => succeeds = true
  | .client .finish | .server .finish => True

/-- What the client has done of the exchange. -/
def ClientProgress (net : Network) : ClientPhase → Prop
  | .connecting => net.connected = false
  | .handshaking => net.connected = true
  | .writing => True
  | .reading => net.requests.sent = request
  | .closing => net.responses.delivered = response
  | .exited code =>
      (code = 0 ∧ net.responses.delivered = response) ∨ (code = 1 ∧ net.connected = false)
  | .faulted _ => False

/-- What the server has done of the exchange. -/
def ServerProgress (net : Network) : ServerPhase → Prop
  | .loading | .listening | .accepting => True
  | .handshaking | .reading => net.connected = true ∧ net.accepted = true
  | .writing => net.requests.delivered = request
  | .closing => net.requests.delivered = request ∧ net.responses.sent = response
  | .exited code =>
      code = 0 ∧ net.requests.delivered = request ∧ net.responses.sent = response
  | .faulted _ => False

/-- What holds in every state of a run without failing calls. -/
structure Progress (s : State) : Prop where
  invariant : Invariant s
  client : ClientProgress s.net s.client.phase
  server : ServerProgress s.net s.server.phase

theorem initial_progress (clientBuffer serverBuffer : Buffer 256) :
    Progress (initial clientBuffer serverBuffer) where
  invariant := initial_invariant clientBuffer serverBuffer
  client := rfl
  server := trivial

section Step

variable {s : State}

/-- A whole text that nothing was read of yet is read in one piece. -/
theorem deliverMany_whole {c : Channel UInt8} {text : List UInt8}
    (hdelivered : c.delivered = []) (hsent : c.sent = text) (hlen : text.length ≤ 255) :
    (c.deliverMany (min 255 c.pending.length)).delivered = text := by
  have hpending : c.pending = text := by
    simp [Channel.pending, hdelivered, hsent]
  rw [c.delivered_deliverMany (by rw [hpending]; exact le_min hlen le_rfl), hsent]

/-- Nothing can be pending before anything was sent. -/
theorem pending_of_nothing {c : Channel UInt8} (hsent : c.sent = []) : c.pending = [] := by
  simp [Channel.pending, hsent]

/-- A client that waits for the response is not left alone without one. -/
theorem response_sent_of_read (hprogress : Progress s)
    (hread : s.net.responses.pending = [] → s.server.phase.rank = 0) :
    s.net.responses.sent = response := by
  refine hprogress.invariant.responses_sent.resolve_left fun hnothing => ?_
  have hserver := hprogress.server
  have hrank := hread (pending_of_nothing hnothing)
  have hempty : ¬s.net.responses.sent = response := by
    rw [hnothing]
    decide
  cases hphase : s.server.phase with
  | exited code =>
      rw [hphase] at hserver
      exact hempty hserver.2.2
  | faulted fault =>
      rw [hphase] at hserver
      exact hserver
  | loading | listening | accepting | handshaking | reading | writing | closing =>
      simp [hphase, ServerPhase.rank] at hrank

/-- A server that waits for the request is not left alone without one. -/
theorem request_sent_of_read (hprogress : Progress s) (hphase : s.server.phase = .reading)
    (hread : s.net.requests.pending = [] → s.client.phase.rank = 0) :
    s.net.requests.sent = request := by
  refine hprogress.invariant.requests_sent.resolve_left fun hnothing => ?_
  have hclient := hprogress.client
  have hserver := hprogress.server
  have hserverAt := hprogress.invariant.server_at
  have hrank := hread (pending_of_nothing hnothing)
  rw [hphase] at hserver hserverAt
  cases hclientPhase : s.client.phase with
  | exited code =>
      rw [hclientPhase] at hclient
      rcases hclient with ⟨-, hresponse⟩ | ⟨-, hunconnected⟩
      · have horder := s.net.responses.in_order
        rw [hresponse, hserverAt.2, List.prefix_nil] at horder
        exact absurd horder (by decide)
      · exact absurd (hserver.1.symm.trans hunconnected) (by decide)
  | faulted fault =>
      rw [hclientPhase] at hclient
      exact hclient
  | connecting | handshaking | writing | reading | closing =>
      simp [hclientPhase, ClientPhase.rank] at hrank

theorem client_progress {call : ClientCall} (hprogress : Progress s)
    (henabled : ClientEnabled s call) (hcalls : FaultFree s (.client call)) :
    Progress (clientNext s call) := by
  have hinv := client_invariant hprogress.invariant henabled
  have hclient := hprogress.client
  have hclientAt := hprogress.invariant.client_at
  cases call with
  | connect succeeds =>
      rcases henabled with ⟨hphase, hlistening⟩
      rw [hphase] at hclientAt
      refine ⟨hinv, ?_, ?_⟩
      · cases succeeds with
        | true => rfl
        | false => exact Or.inr ⟨rfl, rfl⟩
      · have hserver := hprogress.server
        have hunconnected : s.net.connected ≠ true := by simp [hclientAt.1]
        show ServerProgress { s.net with connected := succeeds } s.server.phase
        cases hserverPhase : s.server.phase with
        | handshaking | reading =>
            rw [hserverPhase] at hserver
            exact absurd hserver.1 hunconnected
        | loading | listening | accepting => trivial
        | writing | closing | exited code | faulted fault =>
            rw [hserverPhase] at hserver
            exact hserver
  | sslConnect succeeds =>
      simp only [FaultFree] at hcalls
      subst hcalls
      exact ⟨hinv, trivial, hprogress.server⟩
  | sslWrite succeeds =>
      simp only [FaultFree] at hcalls
      subst hcalls
      rw [show s.client.phase = .writing from henabled] at hclientAt
      refine ⟨hinv, ?_, hprogress.server⟩
      simp [clientNext, Client.sslWrite, ClientProgress, Channel.sendAll, hclientAt.2.1]
  | sslRead count =>
      rcases henabled with ⟨hphase, hcount, -⟩
      rcases hcalls with ⟨rfl, hend⟩
      rw [hphase] at hclientAt
      have hsent : s.net.responses.sent = response := by
        refine response_sent_of_read hprogress fun hnothing => hend ?_
        simp [hnothing]
      have hwhole := deliverMany_whole hclientAt.2 hsent (by decide)
      have hshown : s.client.shown = none := by
        rw [hprogress.invariant.client_shown, hclientAt.2]
        rfl
      have hread := (receive_shown ClientPhase.closing ClientPhase.closing ClientPhase.faulted
        response_free (Or.inr hsent) hclientAt.2 hshown hcount).2.trans (ite_self _)
      refine ⟨hinv, ?_, hprogress.server⟩
      show ClientProgress _ (s.client.sslRead _).phase
      rw [Client.sslRead, hread]
      exact hwhole
  | finish =>
      rw [show s.client.phase = .closing from henabled] at hclient
      exact ⟨hinv, Or.inl ⟨rfl, hclient⟩, hprogress.server⟩

theorem server_progress {call : ServerCall} (hprogress : Progress s)
    (henabled : ServerEnabled s call) (hcalls : FaultFree s (.server call)) :
    Progress (serverNext s call) := by
  have hinv := server_invariant hprogress.invariant henabled
  have hserver := hprogress.server
  have hserverAt := hprogress.invariant.server_at
  cases call with
  | loadCertificate succeeds =>
      simp only [FaultFree] at hcalls
      subst hcalls
      exact ⟨hinv, hprogress.client, trivial⟩
  | listen succeeds => exact ⟨hinv, hprogress.client, trivial⟩
  | accept succeeds =>
      simp only [FaultFree] at hcalls
      subst hcalls
      exact ⟨hinv, hprogress.client, henabled.2 rfl, rfl⟩
  | sslAccept succeeds =>
      simp only [FaultFree] at hcalls
      subst hcalls
      rw [henabled.1] at hserver
      exact ⟨hinv, hprogress.client, hserver⟩
  | sslRead count =>
      rcases henabled with ⟨hphase, hcount, -⟩
      rcases hcalls with ⟨rfl, hend⟩
      rw [hphase] at hserverAt
      have hsent : s.net.requests.sent = request := by
        refine request_sent_of_read hprogress hphase fun hnothing => hend ?_
        simp [hnothing]
      have hwhole := deliverMany_whole hserverAt.1 hsent (by decide)
      have hshown : s.server.shown = none := by
        rw [hprogress.invariant.server_shown, hserverAt.1]
        rfl
      have hread := (receive_shown ServerPhase.closing ServerPhase.writing ServerPhase.faulted
        request_free (Or.inr hsent) hserverAt.1 hshown hcount).2
      rw [if_neg (by rw [hwhole]; decide)] at hread
      refine ⟨hinv, hprogress.client, ?_⟩
      show ServerProgress _ (s.server.sslRead _).phase
      rw [Server.sslRead, hread]
      exact hwhole
  | sslWrite succeeds =>
      simp only [FaultFree] at hcalls
      subst hcalls
      rw [show s.server.phase = .writing from henabled] at hserver hserverAt
      refine ⟨hinv, hprogress.client, hserver, ?_⟩
      simp [serverNext, Channel.sendAll, hserverAt.2]
  | finish =>
      rw [show s.server.phase = .closing from henabled] at hserver
      exact ⟨hinv, hprogress.client, rfl, hserver⟩

end Step

/-! ## No run gets stuck half-way -/

section Ending

variable {clientBuffer serverBuffer : Buffer 256} {events : List Event} {s : State}

/-- Both programs have ended with 0 and shown the other one's whole text. -/
def Completed (s : State) : Prop :=
  s.client.phase = .exited 0 ∧ s.client.shown = some response ∧
    s.server.phase = .exited 0 ∧ s.server.shown = some request

/-- The client has found nobody listening, and the server waits for it. -/
def Missed (s : State) : Prop :=
  s.client.phase = .exited 1 ∧ s.client.shown = none ∧
    s.server.phase = .accepting ∧ s.net.connected = false

/-- The client can go on, has ended, or waits for the server. -/
theorem client_moves (hprogress : Progress s) :
    (∃ call, FaultFree s (.client call) ∧ ClientEnabled s call) ∨
      (s.client.phase = .handshaking ∧ s.net.accepted = false) ∨
        (s.client.phase = .reading ∧ s.server.phase.rank ≠ 0 ∧
            s.net.responses.pending = []) ∨
          ∃ code, s.client.phase = .exited code := by
  have hclient := hprogress.client
  cases hphase : s.client.phase with
  | connecting => exact Or.inl ⟨.connect s.net.listening, rfl, hphase, id⟩
  | handshaking =>
      cases haccepted : s.net.accepted with
      | true => exact Or.inl ⟨.sslConnect true, rfl, hphase, fun _ => haccepted⟩
      | false => exact Or.inr (Or.inl ⟨rfl, rfl⟩)
  | writing => exact Or.inl ⟨.sslWrite true, rfl, hphase⟩
  | reading =>
      by_cases hwaits : s.net.responses.pending = [] ∧ s.server.phase.rank ≠ 0
      · exact Or.inr (Or.inr (Or.inl ⟨rfl, hwaits.2, hwaits.1⟩))
      · refine Or.inl ⟨.sslRead (min 255 s.net.responses.pending.length), ⟨rfl, ?_⟩, hphase,
          Nat.min_le_left _ _, Nat.min_le_right _ _⟩
        intro hcount
        have hnothing : s.net.responses.pending = [] :=
          List.length_eq_zero_iff.mp (by omega)
        by_contra hrank
        exact hwaits ⟨hnothing, hrank⟩
  | closing => exact Or.inl ⟨.finish, trivial, hphase⟩
  | exited code => exact Or.inr (Or.inr (Or.inr ⟨code, rfl⟩))
  | faulted fault =>
      rw [hphase] at hclient
      exact hclient.elim

/-- The server can go on, has ended, or waits for the client. -/
theorem server_moves (hprogress : Progress s) :
    (∃ call, FaultFree s (.server call) ∧ ServerEnabled s call) ∨
      (s.server.phase = .accepting ∧ s.net.connected = false) ∨
        (s.server.phase = .reading ∧ s.client.phase.rank ≠ 0 ∧
            s.net.requests.pending = []) ∨
          ∃ code, s.server.phase = .exited code := by
  have hserver := hprogress.server
  cases hphase : s.server.phase with
  | loading => exact Or.inl ⟨.loadCertificate true, rfl, hphase⟩
  | listening => exact Or.inl ⟨.listen true, rfl, hphase⟩
  | accepting =>
      cases hconnected : s.net.connected with
      | true => exact Or.inl ⟨.accept true, rfl, hphase, fun _ => hconnected⟩
      | false => exact Or.inr (Or.inl ⟨rfl, rfl⟩)
  | handshaking =>
      rw [hphase] at hserver
      exact Or.inl ⟨.sslAccept true, rfl, hphase, fun _ => hserver.2⟩
  | reading =>
      by_cases hwaits : s.net.requests.pending = [] ∧ s.client.phase.rank ≠ 0
      · exact Or.inr (Or.inr (Or.inl ⟨rfl, hwaits.2, hwaits.1⟩))
      · refine Or.inl ⟨.sslRead (min 255 s.net.requests.pending.length), ⟨rfl, ?_⟩, hphase,
          Nat.min_le_left _ _, Nat.min_le_right _ _⟩
        intro hcount
        have hnothing : s.net.requests.pending = [] :=
          List.length_eq_zero_iff.mp (by omega)
        by_contra hrank
        exact hwaits ⟨hnothing, hrank⟩
  | writing => exact Or.inl ⟨.sslWrite true, rfl, hphase⟩
  | closing => exact Or.inl ⟨.finish, trivial, hphase⟩
  | exited code => exact Or.inr (Or.inr (Or.inr ⟨code, rfl⟩))
  | faulted fault =>
      rw [hphase] at hserver
      exact hserver.elim

/-- Where the server has shown the request, the client has sent it. -/
theorem request_sent_of_delivered (hdelivered : s.net.requests.delivered = request) :
    s.net.requests.sent ≠ [] := by
  intro hnothing
  have horder := s.net.requests.in_order
  rw [hdelivered, hnothing, List.prefix_nil] at horder
  exact absurd horder (by decide)

/-- The two programs never wait for each other. -/
theorem progress_or_done (hprogress : Progress s) :
    (∃ e t, FaultFree s e ∧ step s e = some t) ∨ Completed s ∨ Missed s := by
  have hinv := hprogress.invariant
  have hclient := hprogress.client
  have hserver := hprogress.server
  have hclientAt := hinv.client_at
  have hserverAt := hinv.server_at
  rcases client_moves hprogress with ⟨call, hcalls, henabled⟩ | hclientWaits
  · exact Or.inl ⟨.client call, _, hcalls, step_client.mpr ⟨henabled, rfl⟩⟩
  rcases server_moves hprogress with ⟨call, hcalls, henabled⟩ | hserverWaits
  · exact Or.inl ⟨.server call, _, hcalls, step_server.mpr ⟨henabled, rfl⟩⟩
  refine Or.inr ?_
  rcases hclientWaits with ⟨hcphase, haccepted⟩ | ⟨hcphase, hrank, -⟩ | ⟨code, hcphase⟩
  all_goals rw [hcphase] at hclient hclientAt
  · -- The client waits for its handshake: the server is on its way to accept it.
    rcases hserverWaits with ⟨hsphase, hunconnected⟩ | ⟨hsphase, -⟩ | ⟨code, hsphase⟩
    all_goals rw [hsphase] at hserver
    · exact absurd (hclient.symm.trans hunconnected) (by decide)
    · exact absurd (hserver.2.symm.trans haccepted) (by decide)
    · exact absurd hclientAt.1 (request_sent_of_delivered hserver.2.1)
  · -- The client waits for the response: its request is pending.
    rcases hserverWaits with ⟨hsphase, -⟩ | ⟨hsphase, -, hnothing⟩ | ⟨code, hsphase⟩
    all_goals rw [hsphase] at hserverAt
    · exact absurd (hclientAt.1.symm.trans hserverAt.1) (by decide)
    · have hwhole := s.net.requests.delivered_append_pending
      rw [hserverAt.1, hnothing, hclient] at hwhole
      exact absurd hwhole (by decide)
    · exact absurd (hsphase ▸ rfl) hrank
  · -- The client has ended.
    rcases hserverWaits with ⟨hsphase, hunconnected⟩ | ⟨-, hrank, -⟩ | ⟨scode, hsphase⟩
    · rw [hsphase] at hserverAt
      rcases hclientAt with ⟨-, haccepted⟩ | ⟨rfl, -, hnothing⟩
      · exact absurd (haccepted.symm.trans hserverAt.1) (by decide)
      · refine Or.inr ⟨hcphase, ?_, hsphase, hunconnected⟩
        rw [hinv.client_shown, hnothing]
        rfl
    · exact absurd (hcphase ▸ rfl) hrank
    · rw [hsphase] at hserver
      rcases hserver with ⟨rfl, hrequest, -⟩
      rcases hclient with ⟨rfl, hresponse⟩ | ⟨rfl, -⟩
      · refine Or.inl ⟨hcphase, ?_, hsphase, ?_⟩
        · rw [hinv.client_shown, hresponse]
          rfl
        · rw [hinv.server_shown, hrequest]
          rfl
      · rcases hclientAt with ⟨hzero, -⟩ | ⟨-, hnothing, -⟩
        · exact absurd hzero (by decide)
        · exact absurd hnothing (request_sent_of_delivered hrequest)

/-- If calls fail only where they have to, every run ends after at most twelve steps, and
whatever the order of the steps, it ends in one of two ways: both programs have ended with 0
and shown each other's whole text, or the client has called before the server listened, has
ended with 1, and the server waits for a client. -/
theorem fault_free_runs_complete
    (hrun : run step (initial clientBuffer serverBuffer) events = some s)
    (hcalls : Along step FaultFree (initial clientBuffer serverBuffer) events) :
    events.length ≤ 12 ∧
      ((∃ e t, FaultFree s e ∧ step s e = some t) ∨ Completed s ∨ Missed s) := by
  refine ⟨run_length_le_twelve hrun, progress_or_done ?_⟩
  refine run_invariant ?_ (initial_progress clientBuffer serverBuffer) hcalls hrun
  intro s e t hprogress hcalls hstep
  cases e with
  | client call =>
      rcases step_client.mp hstep with ⟨henabled, rfl⟩
      exact client_progress hprogress henabled hcalls
  | server call =>
      rcases step_server.mp hstep with ⟨henabled, rfl⟩
      exact server_progress hprogress henabled hcalls

end Ending

instance (s : State) : ∀ e, Decidable (FaultFree s e)
  | .client (.connect _) | .client (.sslConnect _) | .client (.sslWrite _)
  | .server (.loadCertificate _) | .server (.listen _) | .server (.accept _)
  | .server (.sslAccept _) | .server (.sslWrite _) => inferInstanceAs (Decidable (_ = _))
  | .client (.sslRead _) | .server (.sslRead _) => inferInstanceAs (Decidable (_ ∧ _))
  | .client .finish | .server .finish => .isTrue trivial

/-- The client calls before the server listens. -/
def earlyCall : List Event :=
  [.client (.connect false), .server (.loadCertificate true), .server (.listen true)]

theorem wholeExchange_and_earlyCall :
    (∃ s, run step (initial (Buffer.zero 256) (Buffer.zero 256)) wholeExchange = some s ∧
      wholeExchange.length ≤ 12 ∧
        ((∃ e t, FaultFree s e ∧ step s e = some t) ∨ Completed s ∨ Missed s) ∧
          Completed s) ∧
    ∃ s, run step (initial (Buffer.zero 256) (Buffer.zero 256)) earlyCall = some s ∧
      earlyCall.length ≤ 12 ∧
        ((∃ e t, FaultFree s e ∧ step s e = some t) ∨ Completed s ∨ Missed s) ∧
          Missed s := by
  constructor
  · rcases wholeExchange_run with ⟨s, hrun, hdone⟩
    have hends := fault_free_runs_complete hrun (by decide +kernel)
    exact ⟨s, hrun, hends.1, hends.2, hdone⟩
  · have hrun : run step (initial (Buffer.zero 256) (Buffer.zero 256)) earlyCall =
        some _ := rfl
    have hends := fault_free_runs_complete hrun (by decide +kernel)
    exact ⟨_, hrun, hends.1, hends.2, rfl, rfl, rfl, rfl⟩

end AutomotiveSecurity.Tls
