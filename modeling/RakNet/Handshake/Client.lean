/-
The client's side of the handshake (`src/client.rs`: `RakNetClient::connect`).

What the network and the clock do comes in a `World`: how each send ends, what each receive returns, and what the tasks of
the stream do while `connect` goes on. The stream of a client starts in `Connecting` like any other. `connect` hands its
login packets to `RakNetStream::send`, which takes nothing before the stream is `Connected`; and the only thing that ever
makes a stream `Connected` is a `NewIncomingConnection` from its peer, which a server does not send.

- `connect_ne_ok`: whatever the server answers, `connect` does not return a stream, unless the peer sends the packet that
  only a client sends.
- `connect_closed`: against the listener of this crate, with nothing lost, it ends in `ConnectionClosed`.
-/
import RakNet.Connection.Login
import RakNet.Handshake.Listener

namespace RakNet

open Lib Lib.Wire

structure RakNetClient where
  clientGuid : UInt64

/-- how a `recv` with a time limit ends -/
inductive Recv where
  | packet (data : Bytes)
  | failed (msg : String)
  | timedOut

namespace Recv

/-- a packet is cut to the buffer of 2048 bytes -/
def get : Recv → Result Bytes
  | packet data => .ok (data.take Conn.recvBufferSize)
  | failed msg => .err (.io msg)
  | timedOut => .err .timeout

end Recv

/-- a request and what comes back -/
structure Exchange where
  sendError : Option String
  reply : Recv

/-- what `connect` meets outside -/
structure World where
  ping : Exchange
  /-- the attempts of the MTU discovery -/
  attempts : Nat → Exchange
  request2 : Exchange
  /-- how `socket.connect` fails, if it does -/
  connectError : Option String
  /-- how the bind of the placeholder socket fails, if it does -/
  bindError : Option String
  nowMicros : Nat
  /-- what the tasks of the stream do before the connection request is handed over, then before `NewIncomingConnection` is,
  and then before `connect` returns -/
  beforeRequest : List Session.Op
  beforeIncoming : List Session.Op
  beforeReturn : List Session.Op
  /-- is the send task still there to take the two packets -/
  takesRequest : Bool
  takesIncoming : Bool

namespace RakNetClient

/-- the result of a call that fails in one way only -/
def attempt : Option String → Result Unit
  | none => .ok ()
  | some msg => .err (.io msg)

/-- the check that opens each receive of the client -/
def expectId (id : UInt8) (name : String) (packet : Bytes) : Result Unit :=
  if packet.head? != some id then .err (.invalidPacket ("Expected " ++ name)) else .ok ()

def receiveUnconnectedPong (r : Recv) : Result (UInt64 × Bytes) := do
  let packet ← r.get
  expectId idUnconnectedPong "UnconnectedPong" packet
  let (_timestamp, serverGuid, pongData) ← decodeUnconnectedPong packet
  return (serverGuid, pongData)

def receiveOpenConnectionReply1 (r : Recv) : Result (UInt64 × UInt16) := do
  let packet ← r.get
  expectId idOpenConnectionReply1 "OpenConnectionReply1" packet
  decodeOpenConnectionReply1 packet

def receiveOpenConnectionReply2 (r : Recv) : Result (UInt64 × SocketAddr × UInt16) := do
  let packet ← r.get
  expectId idOpenConnectionReply2 "OpenConnectionReply2" packet
  decodeOpenConnectionReply2 packet

/-- `discover_mtu`: the first size that is answered; a failed send ends it, a failed receive goes on to the next size -/
def discoverMtu : List UInt16 → (Nat → Exchange) → Result UInt16
  | [], _ => .err .timeout
  | _ :: rest, attempts => do
    attempt (attempts 0).sendError
    match receiveOpenConnectionReply1 (attempts 0).reply with
    | .ok (_serverGuid, replyMtu) => return replyMtu
    | _ => discoverMtu rest fun i => attempts (i + 1)

/-- the sizes `discover_mtu` tries -/
def mtuSizes : List UInt16 := [1492, 1200, 576]

/-- `RakNetStream::send`: refused unless the stream is connected and its send task takes the data. What the task does with
it is among the operations of the session. -/
def send (s : Session) (taskTakes : Bool) (_data : Bytes) : Result Unit :=
  if !s.conn.shared.isConnected then .err .connectionClosed
  else if taskTakes then .ok ()
  else .err .connectionClosed

def completeConnectionHandshake (p : Profile) (client : RakNetClient) (serverAddr : SocketAddr)
    (requestTimestamp acceptedTimestamp : UInt64) (w : World) (stream : Session) : Result Session := do
  let stream := Session.run p stream w.beforeRequest
  send stream w.takesRequest (encodeConnectionRequest client.clientGuid requestTimestamp)
  let stream := Session.run p stream w.beforeIncoming
  send stream w.takesIncoming (encodeNewIncomingConnection serverAddr requestTimestamp acceptedTimestamp)
  return Session.run p stream w.beforeReturn

/-- `connect`: the stream it returns, as its session stands then -/
def connect (p : Profile) (client : RakNetClient) (serverAddr : SocketAddr) (requestTimestamp acceptedTimestamp : UInt64)
    (w : World) : Result Session := do
  attempt w.ping.sendError
  let (_serverGuid, _pongData) ← receiveUnconnectedPong w.ping.reply
  let _mtu ← discoverMtu mtuSizes w.attempts
  attempt w.request2.sendError
  let (_serverGuid, _clientAddr, mtu) ← receiveOpenConnectionReply2 w.request2.reply
  attempt w.connectError
  attempt w.bindError
  completeConnectionHandshake p client serverAddr requestTimestamp acceptedTimestamp w (Session.init mtu w.nowMicros false)

/-! ## The stream of a client -/

/-- the step handles no frame with the packet only a client sends -/
def NoIncoming (p : Profile) (s : Session) (op : Session.Op) : Prop :=
  ∀ f, Session.frameOf p s op = some f → f.payload.head? ≠ some idNewIncomingConnection

theorem kindIn_incoming {s : ConnectionState} {f : Frame} (h : Conn.kindIn s f = .incoming) :
    f.payload.head? = some idNewIncomingConnection := by
  unfold Conn.kindIn at h
  cases hp : f.payload with
  | nil => simp [hp] at h
  | cons packetId rest =>
    rw [hp] at h
    dsimp only at h
    split_ifs at h with h1 h2 h3 h4 h5
    obtain ⟨-, hid⟩ := Bool.and_eq_true_iff.1 h5
    rw [List.head?_cons, eq_of_beq hid]

/-- without that packet a stream that is not connected stays so -/
theorem not_connected_step {p : Profile} {s : Session} {op : Session.Op} (hs : s.conn.shared.state ≠ .connected)
    (hop : NoIncoming p s op) : (Session.step p s op).conn.shared.state ≠ .connected := by
  intro hcon
  obtain ⟨f, hf, hest⟩ := (Session.becomesConnected_iff hs).1 hcon
  refine hop f hf (kindIn_incoming (s := s.conn.shared.state) ?_)
  unfold Conn.establishes at hest
  obtain ⟨hkind, -⟩ := Bool.and_eq_true_iff.1 hest
  exact eq_of_beq (Bool.and_eq_true_iff.1 hkind).2

theorem not_connected_run {p : Profile} {s : Session} (hs : s.conn.shared.state ≠ .connected) {ops : List Session.Op}
    (hops : Machine.Steps (Session.step p) (NoIncoming p) s ops) : (Session.run p s ops).conn.shared.state ≠ .connected :=
  @Machine.run_inv_of_steps Session Session.Op (Session.step p) (NoIncoming p)
    (fun s => s.conn.shared.state ≠ .connected) (fun _ _ h hop => not_connected_step h hop) s ops hs hops

theorem init_ne_connected (mtu : UInt16) (nowMicros : Nat) :
    (Session.init mtu nowMicros false).conn.shared.state ≠ .connected := by
  intro h
  cases h

/-- a stream that is not connected refuses the connection request -/
theorem completeConnectionHandshake_closed {p : Profile} {w : World} {stream : Session}
    (h : (Session.run p stream w.beforeRequest).conn.shared.state ≠ .connected) (client : RakNetClient)
    (serverAddr : SocketAddr) (requestTimestamp acceptedTimestamp : UInt64) :
    completeConnectionHandshake p client serverAddr requestTimestamp acceptedTimestamp w stream =
      .err .connectionClosed := by
  have hsend : ∀ data, send (Session.run p stream w.beforeRequest) w.takesRequest data = .err .connectionClosed := by
    intro data
    unfold send SharedState.isConnected
    rw [if_pos (by simpa using h)]
  unfold completeConnectionHandshake
  dsimp only
  rw [hsend]
  rfl

/-- **`connect` returns no stream**, whatever the server answers and whatever the network does, as long as the peer does not
send a `NewIncomingConnection` itself. -/
theorem connect_ne_ok {p : Profile} {client : RakNetClient} {serverAddr : SocketAddr}
    {requestTimestamp acceptedTimestamp : UInt64} {w : World}
    (hpeer : ∀ mtu, Machine.Steps (Session.step p) (NoIncoming p) (Session.init mtu w.nowMicros false) w.beforeRequest)
    (s : Session) : connect p client serverAddr requestTimestamp acceptedTimestamp w ≠ .ok s := by
  intro h
  unfold connect at h
  obtain ⟨_, -, h⟩ := Outcome.bind_eq_ok.1 h
  obtain ⟨pong, -, h⟩ := Outcome.bind_eq_ok.1 h
  obtain ⟨mtu, -, h⟩ := Outcome.bind_eq_ok.1 h
  obtain ⟨_, -, h⟩ := Outcome.bind_eq_ok.1 h
  obtain ⟨reply, -, h⟩ := Outcome.bind_eq_ok.1 h
  obtain ⟨_, -, h⟩ := Outcome.bind_eq_ok.1 h
  obtain ⟨_, -, h⟩ := Outcome.bind_eq_ok.1 h
  have hclosed := not_connected_run (init_ne_connected reply.2.2 w.nowMicros) (hpeer reply.2.2)
  rw [completeConnectionHandshake_closed hclosed] at h
  cases h

/-! ## A correct run -/

/-- nothing is lost, and the peer answers as `RakNetListener` does -/
structure CorrectRun (p : Profile) (client : RakNetClient) (serverAddr : SocketAddr) (w : World) where
  listener : RakNetListener
  /-- the client's address, as the listener sees it -/
  clientAddr : SocketAddr
  pingTimestamp : UInt64
  sendsWork : w.ping.sendError = none ∧ (w.attempts 0).sendError = none ∧ w.request2.sendError = none ∧
    w.connectError = none ∧ w.bindError = none
  pong : ∃ reply, listener.handleUnconnectedPing (encodeUnconnectedPing pingTimestamp client.clientGuid) = some reply ∧
    w.ping.reply = .packet reply
  reply1 : ∃ reply, listener.handleOpenConnectionRequest1 (encodeOpenConnectionRequest1 protocolVersion 1492) =
    some reply ∧ (w.attempts 0).reply = .packet reply
  reply2 : ∃ mtu reply, listener.replyToRequest2 (encodeOpenConnectionRequest2 serverAddr (clampMtu (1492 + 28))
    client.clientGuid) clientAddr = some (mtu, reply) ∧ w.request2.reply = .packet reply
  /-- before it is asked, the listener's side sends no frame; it never sends a `NewIncomingConnection` -/
  noIncoming : ∀ mtu, Machine.Steps (Session.step p) (NoIncoming p) (Session.init mtu w.nowMicros false) w.beforeRequest

/-- a packet that fits in the buffer arrives whole -/
theorem get_packet {data : Bytes} (h : data.length ≤ Conn.recvBufferSize) : (Recv.packet data).get = .ok data := by
  rw [Recv.get, List.take_of_length_le h]

theorem expectId_cons (id : UInt8) (name : String) (b : Bytes) : expectId id name (id :: b) = .ok () := by
  simp [expectId]

theorem receiveUnconnectedPong_encode (timestamp serverGuid : UInt64) {pongData : Bytes} (h : pongData.length ≤ 2013) :
    receiveUnconnectedPong (.packet (encodeUnconnectedPong timestamp serverGuid pongData)) = .ok (serverGuid, pongData) := by
  have hlen : (encodeUnconnectedPong timestamp serverGuid pongData).length ≤ 2048 := by
    simp [encodeUnconnectedPong, magic]
    omega
  have hid : expectId idUnconnectedPong "UnconnectedPong" (encodeUnconnectedPong timestamp serverGuid pongData) = .ok () :=
    expectId_cons _ _ _
  rw [receiveUnconnectedPong, get_packet hlen]
  simp only [Outcome.bind_ok, hid, decodeUnconnectedPong_encode timestamp serverGuid (show pongData.length < 2 ^ 16 by omega)]
  rfl

theorem receiveOpenConnectionReply1_encode (serverGuid : UInt64) (mtu : UInt16) :
    receiveOpenConnectionReply1 (.packet (encodeOpenConnectionReply1 serverGuid mtu)) = .ok (serverGuid, mtu) := by
  have hlen : (encodeOpenConnectionReply1 serverGuid mtu).length ≤ 2048 := by
    simp [encodeOpenConnectionReply1, magic]
  have hid : expectId idOpenConnectionReply1 "OpenConnectionReply1" (encodeOpenConnectionReply1 serverGuid mtu) = .ok () :=
    expectId_cons _ _ _
  rw [receiveOpenConnectionReply1, get_packet hlen]
  simp only [Outcome.bind_ok, hid, decodeOpenConnectionReply1_encode]

theorem receiveOpenConnectionReply2_encode (serverGuid : UInt64) (clientAddr : SocketAddr) (mtu : UInt16) :
    receiveOpenConnectionReply2 (.packet (encodeOpenConnectionReply2 serverGuid clientAddr mtu)) =
      .ok (serverGuid, clientAddr, mtu) := by
  have hlen : (encodeOpenConnectionReply2 serverGuid clientAddr mtu).length ≤ 2048 := by
    cases clientAddr <;> simp [encodeOpenConnectionReply2, magic, writeAddress]
  have hid : expectId idOpenConnectionReply2 "OpenConnectionReply2"
      (encodeOpenConnectionReply2 serverGuid clientAddr mtu) = .ok () := expectId_cons _ _ _
  rw [receiveOpenConnectionReply2, get_packet hlen]
  simp only [Outcome.bind_ok, hid, decodeOpenConnectionReply2_encode]

/-- **A handshake with nothing lost fails.** Against a listener of this crate `connect` never returns a stream. When the
pong fits in the client's buffer every request is answered, a stream is created, and the call ends in `ConnectionClosed`:
the stream refuses the connection request. -/
theorem connect_closed (p : Profile) (client : RakNetClient) (serverAddr : SocketAddr)
    (requestTimestamp acceptedTimestamp : UInt64) (w : World) (run : CorrectRun p client serverAddr w) :
    (∀ s, connect p client serverAddr requestTimestamp acceptedTimestamp w ≠ .ok s) ∧
    (run.listener.pongData.length ≤ 2013 →
      connect p client serverAddr requestTimestamp acceptedTimestamp w = .err .connectionClosed) := by
  obtain ⟨listener, clientAddr, pingTimestamp, ⟨h1, h2, h3, h4, h5⟩, ⟨pong, hpong, hpong'⟩,
    ⟨reply1, hreply1, hreply1'⟩, ⟨mtu, reply2, hreply2, hreply2'⟩, hpeer⟩ := run
  refine ⟨fun s => connect_ne_ok hpeer s, ?_⟩
  intro pongFits
  dsimp only at pongFits
  rw [listener.ping_answer] at hpong
  rw [listener.request1_answer (by decide)] at hreply1
  rw [listener.request2_answer] at hreply2
  cases hpong
  cases hreply1
  cases hreply2
  have hmtu : discoverMtu mtuSizes w.attempts = .ok (clampMtu (1492 + 28)) := by
    unfold mtuSizes discoverMtu
    rw [h2, hreply1', receiveOpenConnectionReply1_encode]
    rfl
  have hclosed := not_connected_run (init_ne_connected (clampMtu (clampMtu (1492 + 28))) w.nowMicros) (hpeer _)
  unfold connect
  rw [h1, hpong', receiveUnconnectedPong_encode _ _ pongFits, hmtu, h3, hreply2', receiveOpenConnectionReply2_encode, h4, h5]
  exact completeConnectionHandshake_closed hclosed client serverAddr requestTimestamp acceptedTimestamp

/-- `"127.0.0.1:19132"` and `"127.0.0.1:50000"` -/
def homeServer : SocketAddr := .v4 #v[127, 0, 0, 1] 19132
def homeClient : SocketAddr := .v4 #v[127, 0, 0, 1] 50000

/-- a listener's answers, none of them lost -/
def correctWorld : World where
  ping := ⟨none, .packet (encodeUnconnectedPong 5 77 [0x4d])⟩
  attempts _ := ⟨none, .packet (encodeOpenConnectionReply1 77 1500)⟩
  request2 := ⟨none, .packet (encodeOpenConnectionReply2 77 homeClient 1500)⟩
  connectError := none
  bindError := none
  nowMicros := 0
  beforeRequest := [.check]
  beforeIncoming := []
  beforeReturn := []
  takesRequest := true
  takesIncoming := true

/-- the answers are those of the listener with server GUID 77 -/
def correctRun : CorrectRun .dev ⟨42⟩ homeServer correctWorld where
  listener := ⟨77, [0x4d]⟩
  clientAddr := homeClient
  pingTimestamp := 5
  sendsWork := ⟨rfl, rfl, rfl, rfl, rfl⟩
  pong := ⟨_, RakNetListener.ping_answer _ _ _, rfl⟩
  reply1 := ⟨_, RakNetListener.request1_answer _ (by decide), rfl⟩
  reply2 := ⟨_, _, RakNetListener.request2_answer _ _ _ _ _, rfl⟩
  noIncoming _ := by
    constructor
    · intro f hf
      cases hf
    · trivial

/-- **One such run.** -/
theorem connect_closed_home : connect .dev ⟨42⟩ homeServer 6 7 correctWorld = .err .connectionClosed :=
  (connect_closed .dev ⟨42⟩ homeServer 6 7 correctWorld correctRun).2 (by decide)

/-- **The handshake fails on a correct run**: there is one, and it ends in an error. -/
theorem correct_handshake_fails :
    Nonempty (CorrectRun .dev ⟨42⟩ homeServer correctWorld) ∧
    (connect .dev ⟨42⟩ homeServer 6 7 correctWorld).isOk = false := by
  refine ⟨⟨correctRun⟩, ?_⟩
  decide

end RakNetClient

end RakNet
