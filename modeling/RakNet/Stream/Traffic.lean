/-
What the metrics of a stream count.

Pongs and disconnect notifications go to the socket without `record_send`; everything else a stream sends is counted in the
moment the socket takes it. A packet is counted as received when the receive task is done with it, whatever came of it.

- `Ledger`: the send counters against the packets the socket took. Retransmissions are counted because only datagrams are
  in the send queue.
- `received`: the packets the receive task has finished.
- `counters_exact`: all four counters along every run, modulo 2^64.
-/
import RakNet.Connection.Fits
import RakNet.Connection.Tracking
import RakNet.Stream.Accesses

namespace RakNet

open Lib Lib.Wire

namespace ConnectionMetrics

open Action

/-- everything but the estimate and its variance -/
def trafficView (m : ConnectionMetrics) : ConnectionMetrics := { m with rtt := 0, rttVar := 0 }

/-- a sample changes the estimate and its variance only -/
theorem traffic_updateRtt (p : Profile) (sampleMicros : Nat) : Preserves trafficView (updateRtt p sampleMicros) := by
  refine (preserves_get _).bind fun m => (preserves_lift _ _).bind fun _ => (preserves_lift _ _).bind fun _ => ?_
  refine Preserves.bind (fun _ => rfl) fun _ => (preserves_lift _ _).bind fun _ => ?_
  exact (preserves_lift _ _).bind fun _ => fun _ => rfl

end ConnectionMetrics

namespace SendQueue

/-- every packet in the queue has the property -/
def Holds (P : Bytes → Prop) (q : SendQueue) : Prop := ∀ seq packet, q.packet? seq = some packet → P packet

variable {P : Bytes → Prop} {q : SendQueue}

theorem holds_new : new.Holds P := by
  intro seq packet hpacket
  rw [packet?_new] at hpacket
  cases hpacket

theorem Holds.insert (h : q.Holds P) (now seq : Nat) {datagram : Bytes} (hdatagram : P datagram) :
    (q.insert now seq datagram).2.Holds P := by
  intro s packet hpacket
  rcases q.insert_cases now seq datagram with ⟨-, he⟩ | ⟨-, -, -, he⟩
  · rw [he] at hpacket
    exact h s packet hpacket
  · rw [he] at hpacket
    split_ifs at hpacket
    · cases hpacket
      exact hdatagram
    · exact h s packet hpacket

theorem Holds.getExpired (h : q.Holds P) (now rtt mult : Nat) : (q.getExpired now rtt mult).2.Holds P := by
  intro s packet hpacket
  rw [packet?_getExpired] at hpacket
  exact h s packet hpacket

theorem Holds.removes (h : q.Holds P) {q' : SendQueue} {covered : Nat → Bool} (hr : Removes q q' covered) : q'.Holds P := by
  intro s packet hpacket
  rw [hr.packet?] at hpacket
  split_ifs at hpacket
  exact h s packet hpacket

/-- what is sent again was in the queue -/
theorem Holds.expired (h : q.Holds P) {now rtt mult : Nat} {packet : Bytes}
    (hpacket : packet ∈ (q.getExpired now rtt mult).1.map Prod.snd) : P packet := by
  obtain ⟨e, he, rfl⟩ := List.mem_map.1 hpacket
  exact h e.1 e.2 (mem_getExpired he)

/-- everything in the queue is a datagram -/
def OnlyDatagrams (q : SendQueue) : Prop := q.Holds fun packet => packet.head? = some (bitFlagDatagram ||| bitFlagValid)

end SendQueue

namespace Conn

open Action

/-- is the packet one that `record_send` is called for -/
def counted (packet : Bytes) : Bool :=
  packet.head? != some idConnectedPong && packet.head? != some idDisconnectNotification

theorem counted_of_datagram {packet : Bytes} (h : packet.head? = some (bitFlagDatagram ||| bitFlagValid)) :
    counted packet = true := by
  unfold counted
  rw [h]
  decide

/-! ## What was sent -/

/-- the send counters, the packets the socket took and the packets that may be sent again -/
structure Ledger (metrics : ConnectionMetrics) (sent : List Bytes) (queue : SendQueue) : Prop where
  packets : metrics.packetsSent = (sent.filter counted).length % 2 ^ 64
  bytes : metrics.bytesSent = ((sent.filter counted).map List.length).sum % 2 ^ 64
  queued : queue.OnlyDatagrams

def Balanced (c : Conn) : Prop := Ledger c.shared.metrics c.sent c.shared.sendQueue

theorem Ledger.recordSend {m : ConnectionMetrics} {sent : List Bytes} {q : SendQueue} (h : Ledger m sent q) (t : Nat)
    {packet : Bytes} (hpacket : counted packet = true) : Ledger (m.recordSend t packet.length) (sent ++ [packet]) q := by
  have hfilter : (sent ++ [packet]).filter counted = sent.filter counted ++ [packet] := by
    rw [List.filter_append, List.filter_cons_of_pos hpacket, List.filter_nil]
  refine ⟨?_, ?_, h.queued⟩
  · rw [hfilter, List.length_append, ConnectionMetrics.recordSend, h.packets]
    exact Nat.mod_add_mod _ _ _
  · rw [hfilter, List.map_append, List.sum_append, ConnectionMetrics.recordSend, h.bytes]
    exact Nat.mod_add_mod _ _ _

/-- a packet that `record_send` is not called for -/
theorem Ledger.uncounted {m : ConnectionMetrics} {sent : List Bytes} {q : SendQueue} (h : Ledger m sent q) {packet : Bytes}
    (hpacket : counted packet = false) : Ledger m (sent ++ [packet]) q := by
  have hfilter : (sent ++ [packet]).filter counted = sent.filter counted := by
    rw [List.filter_append, List.filter_cons_of_neg (by simp [hpacket]), List.filter_nil, List.append_nil]
  refine ⟨?_, ?_, h.queued⟩
  · rw [hfilter]
    exact h.packets
  · rw [hfilter]
    exact h.bytes

/-- the counters stay -/
theorem Ledger.congr {m m' : ConnectionMetrics} {sent : List Bytes} {q q' : SendQueue} (h : Ledger m sent q)
    (hm : m'.trafficView = m.trafficView) (hq : q'.OnlyDatagrams) : Ledger m' sent q' where
  packets := (congrArg ConnectionMetrics.packetsSent hm).trans h.packets
  bytes := (congrArg ConnectionMetrics.bytesSent hm).trans h.bytes
  queued := hq

theorem balanced_send (env : Env) {packet : Bytes} (hpacket : counted packet = true) :
    Keeps Balanced (do socketSend env packet; recordSend env packet.length : Act Unit) := by
  intro c hc
  rw [bind_apply]
  cases henv : env.sendError with
  | none =>
    rw [socketSend_ok henv]
    exact Ledger.recordSend hc env.unixMicros hpacket
  | some msg =>
    rw [socketSend_err henv]
    exact hc

theorem balanced_uncounted (env : Env) {packet : Bytes} (hpacket : counted packet = false) :
    Keeps Balanced (socketSend env packet) := by
  intro c hc
  cases henv : env.sendError with
  | none =>
    rw [socketSend_ok henv]
    exact Ledger.uncounted hc hpacket
  | some msg =>
    rw [socketSend_err henv]
    exact hc

theorem balanced_transmit (env : Env) (frame : Frame) {datagram : Bytes} (hdatagram : counted datagram = true) :
    Keeps Balanced (transmit env frame datagram) := by
  intro c hc
  cases henv : env.sendError with
  | none =>
    rw [transmit_ok henv]
    exact Ledger.recordSend hc env.unixMicros hdatagram
  | some msg =>
    rw [transmit_err henv]
    exact hc

theorem balanced_sendAll (envs : Nat → Env) {packets : List Bytes} (hpackets : ∀ b ∈ packets, counted b = true) :
    Keeps Balanced (sendAll envs packets) := by
  induction packets generalizing envs with
  | nil => exact keeps_pure _ _
  | cons packet packets ih =>
    intro c hc
    have hfirst := balanced_send (envs 0) (hpackets packet List.mem_cons_self) c hc
    cases henv : (envs 0).sendError with
    | none =>
      rw [bind_apply, socketSend_ok henv] at hfirst
      rw [sendAll_cons_ok henv]
      exact ih _ (fun b hb => hpackets b (List.mem_cons_of_mem _ hb)) _ hfirst
    | some msg =>
      rw [sendAll_cons_err henv]
      exact hc

/-- what is resent was queued -/
theorem balanced_checkRetransmissions (envs : Nat → Env) : Keeps Balanced (checkRetransmissions envs) := by
  intro c hc
  unfold checkRetransmissions
  rw [bind_apply]
  refine balanced_sendAll envs ?_ _ (Ledger.congr hc rfl (hc.queued.getExpired _ _ _))
  intro b hb
  exact counted_of_datagram (hc.queued.expired hb)

theorem balanced_sendFrame (env : Env) (payload : Bytes) (split : Option SplitInfo) :
    Keeps Balanced (sendFrame env payload split) :=
  keeps_sendFrame (fun _ _ => fun _ hc => hc)
    (fun env frame _ hdatagram => balanced_transmit env frame (counted_of_datagram hdatagram))
    (fun env seq _ hdatagram => fun _ hc => Ledger.congr hc rfl (hc.queued.insert env.now seq.get hdatagram)) env payload split

/-- **The send counters are an invariant** of all accesses. -/
theorem accesses_balanced (p : Profile) : AllAccesses p Balanced where
  pong env _ := balanced_uncounted env rfl
  goodbye env := balanced_uncounted env rfl
  handleConnectionRequest := keeps_handleConnectionRequest fun env _ _ _ => balanced_sendFrame env _ none
  sendFrame := balanced_sendFrame
  splitId := fun _ hc => hc
  state _ _ hc := hc
  notifier _ _ _ hc := hc
  flushAcks env := Keeps.bind (fun _ hc => hc) fun _ => Keeps.ite (keeps_pure _ _) (balanced_send env rfl)
  flushNacks env := Keeps.bind (fun _ hc => hc) fun _ => Keeps.ite (keeps_pure _ _) (balanced_send env rfl)
  checkRetransmissions := balanced_checkRetransmissions
  cleanupExpired _ := fun _ hc => hc
  sendKeepalivePing env := Keeps.bind (fun _ hc => hc) fun _ => balanced_send env rfl
  handleConnectedPong := keeps_handleConnectedPong (fun _ _ hc => hc) fun sample c hc =>
    Ledger.congr hc (ConnectionMetrics.traffic_updateRtt p sample c.shared.metrics) hc.queued
  markReceived _ := fun _ hc => hc
  recordAck _ := fun _ hc => hc
  handleAck ranges := fun c hc => Ledger.congr hc rfl (hc.queued.removes (removes_ackQueue c.shared.sendQueue ranges))
  advanceChannel frame := (preserves_advanceChannel frame).keeps Balanced
  handleGamePacket env frame := (preserves_handleGamePacket p env frame).keeps Balanced

/-! ## What was received -/

/-- the receive counters, and when the last packet was received -/
def recvCounters (c : Conn) : Nat × Nat × Nat :=
  (c.shared.metrics.packetsRecv, c.shared.metrics.bytesRecv, c.shared.metrics.lastRecvTime)

theorem preserves_recvCounters_send (env : Env) (packet : Bytes) : Preserves recvCounters (socketSend env packet) :=
  (wire_socketSend env packet).comp recvCounters

/-- a packet that `record_send` counts -/
theorem preserves_recvCounters_counted (env : Env) (packet : Bytes) :
    Preserves recvCounters (do socketSend env packet; recordSend env packet.length : Act Unit) :=
  (preserves_recvCounters_send env packet).bind fun _ => fun _ => rfl

theorem preserves_recvCounters_sendAll (envs : Nat → Env) (packets : List Bytes) :
    Preserves recvCounters (sendAll envs packets) := by
  induction packets generalizing envs with
  | nil => exact preserves_pure _ _
  | cons b packets ih =>
    exact (preserves_recvCounters_send (envs 0) b).bind fun _ => Preserves.bind (fun _ => rfl) fun _ => ih _

theorem recvCounters_sendFrame (v : Nat × Nat × Nat) (env : Env) (payload : Bytes) (split : Option SplitInfo) :
    Keeps (fun c => recvCounters c = v) (sendFrame env payload split) :=
  keeps_sendFrame (fun _ _ => fun _ hc => hc)
    (fun env _ datagram _ => ((preserves_recvCounters_send env datagram).bind fun _ =>
      Preserves.bind (fun _ => rfl) fun _ => fun _ => rfl).keeps (· = v))
    (fun _ _ _ _ => fun _ hc => hc) env payload split

/-- nothing but `record_recv` touches the receive counters -/
theorem accesses_recvCounters (p : Profile) (v : Nat × Nat × Nat) : AllAccesses p (fun c => recvCounters c = v) where
  pong env _ := (preserves_recvCounters_send env _).keeps (· = v)
  goodbye env := (preserves_recvCounters_send env _).keeps (· = v)
  handleConnectionRequest := keeps_handleConnectionRequest fun env _ _ _ => recvCounters_sendFrame v env _ none
  sendFrame := recvCounters_sendFrame v
  splitId := fun _ hc => hc
  state _ _ hc := hc
  notifier _ _ _ hc := hc
  flushAcks env := (Preserves.bind (fun _ => rfl) fun _ =>
    Preserves.ite (preserves_pure _ _) (preserves_recvCounters_counted env _)).keeps (· = v)
  flushNacks env := (Preserves.bind (fun _ => rfl) fun _ =>
    Preserves.ite (preserves_pure _ _) (preserves_recvCounters_counted env _)).keeps (· = v)
  checkRetransmissions envs :=
    (Preserves.bind (fun _ => rfl) fun packets => preserves_recvCounters_sendAll envs packets).keeps (· = v)
  cleanupExpired _ := fun _ hc => hc
  sendKeepalivePing env := (Preserves.bind (fun _ => rfl) fun _ => preserves_recvCounters_counted env _).keeps (· = v)
  handleConnectedPong := keeps_handleConnectedPong (fun _ _ hc => hc) fun sample c hc => by
    have hview := ConnectionMetrics.traffic_updateRtt p sample c.shared.metrics
    exact (congrArg (fun m : ConnectionMetrics => (m.packetsRecv, m.bytesRecv, m.lastRecvTime)) hview).trans hc
  markReceived _ := fun _ hc => hc
  recordAck _ := fun _ hc => hc
  handleAck _ := fun _ hc => hc
  advanceChannel frame := ((preserves_advanceChannel frame).comp recvCounters).keeps (· = v)
  handleGamePacket env frame := ((preserves_handleGamePacket p env frame).comp recvCounters).keeps (· = v)

end Conn

namespace Stream

open Conn

/-- the packets the receive task finished along a run: when, and how long they are -/
def received (p : Profile) : Stream → List Op → List (Env × Nat) :=
  Machine.trace (next p) fun s op => (finished p s op).toList

/-- the receive counters after some packets more -/
def addReceived (v : Nat × Nat × Nat) (packets : List (Env × Nat)) : Nat × Nat × Nat :=
  packets.foldl (fun v packet => ((v.1 + 1) % 2 ^ 64, (v.2.1 + packet.2) % 2 ^ 64, packet.1.unixMicros)) v

theorem recvCounters_next (p : Profile) (s : Stream) (op : Op) :
    recvCounters (next p s op).conn = addReceived (recvCounters s.conn) (finished p s op).toList := by
  rcases next_cases (accesses_recvCounters p (recvCounters s.conn)) (s := s) rfl op with
    ⟨hnone, hnext⟩ | ⟨env, len, c, hsome, hc, hnext⟩
  · rw [hnone]
    exact hnext
  · rw [hsome, hnext, ← hc]
    rfl

theorem recvCounters_run (p : Profile) (s : Stream) (ops : List Op) :
    recvCounters (run p s ops).conn = addReceived (recvCounters s.conn) (received p s ops) := by
  induction ops generalizing s with
  | nil => rfl
  | cons op ops ih =>
    have hrest := ih (next p s op)
    rw [recvCounters_next] at hrest
    rw [received, Machine.trace, ← received, addReceived, List.foldl_append]
    exact hrest

/-- the counters of a list of packets, from those of a fresh stream -/
theorem addReceived_eq (n bytes time : Nat) (packets : List (Env × Nat)) :
    addReceived (n % 2 ^ 64, bytes % 2 ^ 64, time) packets =
      ((n + packets.length) % 2 ^ 64, (bytes + (packets.map Prod.snd).sum) % 2 ^ 64,
        (packets.getLast?.map fun packet => packet.1.unixMicros).getD time) := by
  induction packets generalizing n bytes time with
  | nil => rfl
  | cons packet packets ih =>
    rw [addReceived, List.foldl_cons, ← addReceived]
    dsimp only
    rw [Nat.mod_add_mod, Nat.mod_add_mod, ih, List.length_cons, List.map_cons, List.sum_cons, List.getLast?_cons]
    have hcount : n + 1 + packets.length = n + (packets.length + 1) := by ring
    have hsum : bytes + packet.2 + (packets.map Prod.snd).sum = bytes + (packet.2 + (packets.map Prod.snd).sum) := by ring
    rw [hcount, hsum]
    cases packets.getLast? <;> rfl

/-- the counters of a stream are what has happened to it -/
structure CountersExact (s : Stream) (received : List (Env × Nat)) (created : Nat) : Prop where
  packetsSent : s.conn.shared.metrics.packetsSent = (s.conn.sent.filter counted).length % 2 ^ 64
  bytesSent : s.conn.shared.metrics.bytesSent = ((s.conn.sent.filter counted).map List.length).sum % 2 ^ 64
  packetsRecv : s.conn.shared.metrics.packetsRecv = received.length % 2 ^ 64
  bytesRecv : s.conn.shared.metrics.bytesRecv = (received.map Prod.snd).sum % 2 ^ 64
  lastRecvTime : s.conn.shared.metrics.lastRecvTime =
    (received.getLast?.map fun packet => packet.1.unixMicros).getD created

/-- **The traffic counters are exact.** In every run of a fresh stream (its three tasks and the calls on its handle in any
order, sends that fail included): the send counters are the number and the bytes of the packets the socket took, pongs and
disconnect notifications apart; the receive counters are those of the packets the receive task has finished, whatever came
of them, and the time of the last reception is that of the last of them. -/
theorem counters_exact (p : Profile) (mtu : UInt16) (nowMicros : Nat) (ready : Bool) (ops : List Op) :
    CountersExact (run p (new mtu nowMicros ready) ops) (received p (new mtu nowMicros ready) ops) nowMicros := by
  have hfresh : Balanced (new mtu nowMicros ready).conn := ⟨rfl, rfl, SendQueue.holds_new⟩
  have hnote : ∀ env len c, Balanced c → Balanced (Session.noteRecv env len c) := fun _ _ _ hc =>
    ⟨hc.packets, hc.bytes, hc.queued⟩
  have hsent := run_keeps (accesses_balanced p) hnote hfresh ops
  have hrecv := (recvCounters_run p (new mtu nowMicros ready) ops).trans (addReceived_eq 0 0 nowMicros _)
  rw [Nat.zero_add, Nat.zero_add] at hrecv
  exact ⟨hsent.packets, hsent.bytes, congrArg Prod.fst hrecv, congrArg (·.2.1) hrecv, congrArg (·.2.2) hrecv⟩

end Stream

end RakNet
