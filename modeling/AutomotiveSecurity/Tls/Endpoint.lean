import AutomotiveSecurity.Foundations.CString

/-!
# The two ends of a TLS connection

{lit}`tls_client.c` sends one request and shows one response; {lit}`tls_server.c` shows one
request and answers it.  Each program is a straight line of library calls.  An endpoint
records the call its program makes next, the receive buffer on its stack and what it has
shown; a function for each call says how the program goes on after it.

Main results:

- Theorem {lit}`showReceived_ok`: up to 255 received bytes are shown up to their first NUL,
  inside the buffer.
- Theorem {lit}`Endpoint.receive_eq`: the whole effect of the code after {lit}`SSL_read`.

Current gaps:

- The certificate that {lit}`--gen-cert` creates and the other printed texts are left out.
-/

namespace AutomotiveSecurity.Tls

open Memory

/-- {lit}`"Vehicle XYZ123: Check for updates"`. -/
def request : List UInt8 :=
  [0x56, 0x65, 0x68, 0x69, 0x63, 0x6C, 0x65, 0x20, 0x58, 0x59, 0x5A, 0x31, 0x32, 0x33,
   0x3A, 0x20, 0x43, 0x68, 0x65, 0x63, 0x6B, 0x20, 0x66, 0x6F, 0x72, 0x20, 0x75, 0x70,
   0x64, 0x61, 0x74, 0x65, 0x73]

/-- {lit}`"OTA: Firmware v2.5.1 available"`. -/
def response : List UInt8 :=
  [0x4F, 0x54, 0x41, 0x3A, 0x20, 0x46, 0x69, 0x72, 0x6D, 0x77, 0x61, 0x72, 0x65, 0x20,
   0x76, 0x32, 0x2E, 0x35, 0x2E, 0x31, 0x20, 0x61, 0x76, 0x61, 0x69, 0x6C, 0x61, 0x62,
   0x6C, 0x65]

/-! ## Received bytes -/

/-- {lit}`buffer[bytes] = '\0'` and {lit}`printf("%s", buffer)` after {lit}`SSL_read` has
written the received bytes. -/
def showReceived (buffer : Buffer 256) (received : List UInt8) :
    Except Fault (Buffer 256 × List UInt8) := do
  let buffer ← buffer.store 0 received
  printTerminated buffer received.length

/-- As {lit}`SSL_read` is given one byte less than the buffer has, the NUL behind the
received bytes is inside it, and so is everything {lit}`printf` reads. -/
theorem showReceived_ok (buffer : Buffer 256) {received : List UInt8}
    (hlen : received.length ≤ 255) :
    ∃ after, showReceived buffer received = .ok (after, received.takeWhile (· ≠ 0)) := by
  have hreceived : 0 + received.length ≤ 256 := by omega
  rcases printTerminated_of_lt (buffer.overwrite 0 received hreceived)
    (show received.length < 256 by omega) with ⟨after, hprint, -⟩
  refine ⟨after, ?_⟩
  rw [Buffer.take_overwrite buffer hreceived] at hprint
  rw [showReceived, store_of_le buffer hreceived]
  exact hprint

/-! ## Endpoints -/

/-- A program at one end: the call it makes next, its receive buffer, and what it has shown
of the received bytes. -/
structure Endpoint (φ : Type) where
  phase : φ
  buffer : Buffer 256
  shown : Option (List UInt8)
deriving DecidableEq, Repr

/-- The code after {lit}`SSL_read` in both programs.  No bytes stand for a return value of
0 or less, after which nothing is shown. -/
def Endpoint.receive {φ : Type} (e : Endpoint φ) (silent shown : φ) (faulted : Fault → φ)
    (received : List UInt8) : Endpoint φ :=
  if received = [] then { e with phase := silent }
  else
    match showReceived e.buffer received with
    | .ok (buffer, text) => { phase := shown, buffer := buffer, shown := some text }
    | .error fault => { e with phase := faulted fault }

theorem Endpoint.receive_nil {φ : Type} (e : Endpoint φ) (silent shown : φ)
    (faulted : Fault → φ) :
    e.receive silent shown faulted [] = { e with phase := silent } :=
  rfl

/-- Up to 255 received bytes are shown up to their first NUL. -/
theorem Endpoint.receive_eq {φ : Type} (e : Endpoint φ) (silent shown : φ)
    (faulted : Fault → φ) {received : List UInt8} (hsome : received ≠ [])
    (hlen : received.length ≤ 255) :
    ∃ buffer, e.receive silent shown faulted received =
      { phase := shown, buffer := buffer, shown := some (received.takeWhile (· ≠ 0)) } := by
  rcases showReceived_ok e.buffer hlen with ⟨buffer, hshow⟩
  refine ⟨buffer, ?_⟩
  rw [Endpoint.receive, if_neg hsome, hshow]

/-! ## The client -/

/-- What {lit}`tls_client.c` does next. -/
inductive ClientPhase
  | connecting
  | handshaking
  | writing
  | reading
  | closing
  | exited (code : Int32)
  | faulted (fault : Fault)
deriving DecidableEq, Repr

/-- The client; with exit code 0 it has reported that the secure communication is
complete. -/
abbrev Client := Endpoint ClientPhase

/-- The start of {lit}`main`, with an arbitrary {lit}`buffer` on the stack. -/
def Client.start (buffer : Buffer 256) : Client where
  phase := .connecting
  buffer := buffer
  shown := none

/-- After {lit}`connect`. -/
def Client.connect (c : Client) (succeeds : Bool) : Client :=
  { c with phase := if succeeds then .handshaking else .exited 1 }

/-- After {lit}`SSL_connect`.  The certificate of the server is shown but not checked. -/
def Client.sslConnect (c : Client) (succeeds : Bool) : Client :=
  { c with phase := if succeeds then .writing else .exited 1 }

/-- After {lit}`SSL_write`, whose result is ignored. -/
def Client.sslWrite (c : Client) : Client :=
  { c with phase := .reading }

/-- After {lit}`SSL_read`. -/
def Client.sslRead (c : Client) (received : List UInt8) : Client :=
  c.receive .closing .closing .faulted received

/-- The report and {lit}`return 0`. -/
def Client.finish (c : Client) : Client :=
  { c with phase := .exited 0 }

/-! ## The server -/

/-- What {lit}`tls_server.c` does next. -/
inductive ServerPhase
  | loading
  | listening
  | accepting
  | handshaking
  | reading
  | writing
  | closing
  | exited (code : Int32)
  | faulted (fault : Fault)
deriving DecidableEq, Repr

/-- The server. -/
abbrev Server := Endpoint ServerPhase

/-- {lit}`main` without {lit}`--gen-cert`, with an arbitrary {lit}`buffer` on the stack. -/
def Server.start (buffer : Buffer 256) : Server where
  phase := .loading
  buffer := buffer
  shown := none

/-- After the certificate and the key have been loaded. -/
def Server.loadCertificate (s : Server) (succeeds : Bool) : Server :=
  { s with phase := if succeeds then .listening else .exited 1 }

/-- After {lit}`bind` and {lit}`listen`, whose results are ignored. -/
def Server.listen (s : Server) : Server :=
  { s with phase := .accepting }

/-- After {lit}`accept`, whose result is ignored. -/
def Server.accept (s : Server) : Server :=
  { s with phase := .handshaking }

/-- After {lit}`SSL_accept`. -/
def Server.sslAccept (s : Server) (succeeds : Bool) : Server :=
  { s with phase := if succeeds then .reading else .closing }

/-- After {lit}`SSL_read`; only what was received is answered. -/
def Server.sslRead (s : Server) (received : List UInt8) : Server :=
  s.receive .closing .writing .faulted received

/-- After {lit}`SSL_write`, whose result is ignored. -/
def Server.sslWrite (s : Server) : Server :=
  { s with phase := .closing }

/-- {lit}`return 0`. -/
def Server.finish (s : Server) : Server :=
  { s with phase := .exited 0 }

end AutomotiveSecurity.Tls
