/-
The MTU two ends agree on, over a network that loses, duplicates and delays what they send.

The client probes with packets of falling sizes, and takes the MTU of whatever reply comes first; the MTU of its stream is the
one of the second reply. The listener adds the IP and UDP headers to the size of a probe and clamps the sum, twice.

- `negotiate`: `connect` up to its stream. `connect_eq`: the rest of it.
- `answer_ne_reply2`: nothing the listener answers before the second request can be taken for a second reply.
- `path_respected`: both streams get the same MTU, and neither sends a packet larger than a probe that got through, ACKs
  apart.
-/
import RakNet.Handshake.Client
import RakNet.Stream.Fits

namespace RakNet

open Lib Lib.Wire

namespace RakNetClient

/-- `connect` up to its stream: the MTU the stream gets -/
def negotiate (w : World) : Result UInt16 := do
  attempt w.ping.sendError
  let (_serverGuid, _pongData) ← receiveUnconnectedPong w.ping.reply
  let _mtu ← discoverMtu mtuSizes w.attempts
  attempt w.request2.sendError
  let (_serverGuid, _clientAddr, mtu) ← receiveOpenConnectionReply2 w.request2.reply
  attempt w.connectError
  attempt w.bindError
  return mtu

theorem connect_eq (p : Profile) (client : RakNetClient) (serverAddr : SocketAddr)
    (requestTimestamp acceptedTimestamp : UInt64) (w : World) :
    connect p client serverAddr requestTimestamp acceptedTimestamp w = (do
      let mtu ← negotiate w
      completeConnectionHandshake p client serverAddr requestTimestamp acceptedTimestamp w
        (Session.init mtu w.nowMicros false)) := by
  unfold connect negotiate
  simp only [Outcome.bind_bind]
  rfl

/-- the reply that ends the discovery -/
theorem discoverMtu_eq_ok {sizes : List UInt16} {attempts : Nat → Exchange} {mtu : UInt16}
    (h : discoverMtu sizes attempts = .ok mtu) :
    ∃ i < sizes.length, ∃ guid, receiveOpenConnectionReply1 (attempts i).reply = .ok (guid, mtu) := by
  induction sizes generalizing attempts with
  | nil => cases h
  | cons size rest ih =>
    unfold discoverMtu at h
    obtain ⟨_, -, h⟩ := Outcome.bind_eq_ok.1 h
    cases hr : receiveOpenConnectionReply1 (attempts 0).reply with
    | ok r =>
      rw [hr] at h
      cases h
      exact ⟨0, Nat.succ_pos _, r.1, hr⟩
    | err e | panic =>
      rw [hr] at h
      obtain ⟨i, hi, guid, hreply⟩ := ih h
      exact ⟨i + 1, Nat.succ_lt_succ hi, guid, hreply⟩

/-- what a receive of the client takes begins with the byte it expects -/
theorem head_of_expectId {id : UInt8} {name : String} {packet : Bytes} (h : expectId id name packet = .ok ()) :
    packet.head? = some id := by
  unfold expectId at h
  split_ifs at h with hid
  simpa using hid

/-- a packet that a receive takes was received, and begins with the right byte -/
theorem packet_of_reply1 {r : Recv} {x : UInt64 × UInt16} (h : receiveOpenConnectionReply1 r = .ok x) :
    ∃ packet, r = .packet packet ∧ packet.head? = some idOpenConnectionReply1 := by
  unfold receiveOpenConnectionReply1 at h
  obtain ⟨packet, hget, h⟩ := Outcome.bind_eq_ok.1 h
  obtain ⟨_, hid, -⟩ := Outcome.bind_eq_ok.1 h
  cases r with
  | packet data =>
    cases hget
    refine ⟨data, rfl, ?_⟩
    rw [← head_of_expectId hid, List.head?_take, if_neg (by decide)]
  | failed msg | timedOut => cases hget

theorem packet_of_reply2 {r : Recv} {x : UInt64 × SocketAddr × UInt16} (h : receiveOpenConnectionReply2 r = .ok x) :
    ∃ packet, r = .packet packet ∧ packet.head? = some idOpenConnectionReply2 := by
  unfold receiveOpenConnectionReply2 at h
  obtain ⟨packet, hget, h⟩ := Outcome.bind_eq_ok.1 h
  obtain ⟨_, hid, -⟩ := Outcome.bind_eq_ok.1 h
  cases r with
  | packet data =>
    cases hget
    refine ⟨data, rfl, ?_⟩
    rw [← head_of_expectId hid, List.head?_take, if_neg (by decide)]
  | failed msg | timedOut => cases hget

end RakNetClient

namespace RakNetListener

/-- the listener has sent this packet back to the ping, or to one of the probes, of the client -/
def Answered (l : RakNetListener) (client : RakNetClient) (pingTimestamp : UInt64) (sizes : List UInt16)
    (packet : Bytes) : Prop :=
  l.answer (encodeUnconnectedPing pingTimestamp client.clientGuid) = some packet ∨
    ∃ size ∈ sizes, l.answer (encodeOpenConnectionRequest1 protocolVersion size) = some packet

theorem answer_ping (l : RakNetListener) (timestamp clientGuid : UInt64) :
    l.answer (encodeUnconnectedPing timestamp clientGuid) =
      some (encodeUnconnectedPong timestamp l.serverGuid l.pongData) := by
  rw [← l.ping_answer timestamp clientGuid]
  rfl

theorem answer_probe (l : RakNetListener) {size : UInt16} (h : 18 ≤ size.toNat) :
    l.answer (encodeOpenConnectionRequest1 protocolVersion size) =
      some (encodeOpenConnectionReply1 l.serverGuid (clampMtu (size + 28))) := by
  rw [← l.request1_answer h]
  rfl

/-- an answer that the client takes for a first reply is one to a probe -/
theorem probe_of_reply1 {l : RakNetListener} {client : RakNetClient} {pingTimestamp : UInt64} {sizes : List UInt16}
    (hsizes : ∀ size ∈ sizes, 18 ≤ size.toNat) {packet : Bytes} (h : l.Answered client pingTimestamp sizes packet)
    (hid : packet.head? = some idOpenConnectionReply1) :
    ∃ size ∈ sizes, l.answer (encodeOpenConnectionRequest1 protocolVersion size) = some packet ∧
      packet = encodeOpenConnectionReply1 l.serverGuid (clampMtu (size + 28)) := by
  rcases h with hping | ⟨size, hsize, hprobe⟩
  · rw [l.answer_ping] at hping
    cases hping
    cases hid
  · refine ⟨size, hsize, hprobe, ?_⟩
    rw [l.answer_probe (hsizes size hsize)] at hprobe
    exact (Option.some.inj hprobe).symm

/-- no answer to the ping or to a probe is a second reply -/
theorem answer_ne_reply2 {l : RakNetListener} {client : RakNetClient} {pingTimestamp : UInt64} {sizes : List UInt16}
    (hsizes : ∀ size ∈ sizes, 18 ≤ size.toNat) {packet : Bytes} (h : l.Answered client pingTimestamp sizes packet) :
    packet.head? ≠ some idOpenConnectionReply2 := by
  rcases h with hping | ⟨size, hsize, hprobe⟩
  · rw [l.answer_ping] at hping
    cases hping
    exact fun hid => by cases hid
  · rw [l.answer_probe (hsizes size hsize)] at hprobe
    cases hprobe
    exact fun hid => by cases hid

end RakNetListener

namespace RakNetClient

/-! ## Agreement -/

/-- whatever the client receives, the listener has sent back to something the client sent before: packets may be lost, come
late, or more than once -/
structure FromListener (l : RakNetListener) (client : RakNetClient) (serverAddr clientAddr : SocketAddr)
    (pingTimestamp : UInt64) (w : World) : Prop where
  attempts : ∀ i packet, (w.attempts i).reply = .packet packet →
    l.Answered client pingTimestamp (mtuSizes.take (i + 1)) packet
  request2 : ∀ packet, w.request2.reply = .packet packet →
    l.Answered client pingTimestamp mtuSizes packet ∨ packet = [idAlreadyConnected] ∨
      ∃ requested mtu, discoverMtu mtuSizes w.attempts = .ok requested ∧
        l.replyToRequest2 (encodeOpenConnectionRequest2 serverAddr requested client.clientGuid) clientAddr = some (mtu, packet)

/-- both ends have the MTU of a probe that got through, and keep to the size of the probe -/
structure Agreed (l : RakNetListener) (client : RakNetClient) (serverAddr clientAddr : SocketAddr) (w : World)
    (mtu size : UInt16) : Prop where
  probed : size ∈ mtuSizes
  /-- the answer to the probe has come back -/
  through : ∃ i reply, l.answer (encodeOpenConnectionRequest1 protocolVersion size) = some reply ∧
    (w.attempts i).reply = .packet reply
  /-- the listener creates its stream with the same MTU -/
  listener : ∃ requested reply, discoverMtu mtuSizes w.attempts = .ok requested ∧
    l.replyToRequest2 (encodeOpenConnectionRequest2 serverAddr requested client.clientGuid) clientAddr = some (mtu, reply)
  fits : ∀ (p : Profile) (nowMicros : Nat) (ready : Bool) (ops : List Stream.Op),
    ∀ packet ∈ (Stream.run p (.new mtu nowMicros ready) ops).conn.sent, packet.head? ≠ some idAck →
      packet.length ≤ (encodeOpenConnectionRequest1 protocolVersion size).length

theorem clampMtu_clampMtu (mtu : UInt16) : clampMtu (clampMtu mtu) = clampMtu mtu := by
  have hinside : ∀ m : UInt16, 576 ≤ m.toNat → m.toNat ≤ 1500 → clampMtu m = m := by
    intro m hlow hhigh
    unfold clampMtu
    rw [if_neg (by rw [UInt16.lt_iff_toNat_lt]; exact Nat.not_lt.2 hlow),
      if_neg (by rw [UInt16.lt_iff_toNat_lt]; exact Nat.not_lt.2 hhigh)]
  exact hinside _ (clampMtu_bounds mtu).1 (clampMtu_bounds mtu).2

/-- the MTU of a probe is no more than the probe and its IP and UDP headers -/
theorem clampMtu_probe {size : UInt16} (h : size ∈ mtuSizes) :
    18 ≤ size.toNat ∧ (clampMtu (size + 28)).toNat ≤ size.toNat + 28 := by
  have hall : (mtuSizes.all fun size => decide (18 ≤ size.toNat ∧ (clampMtu (size + 28)).toNat ≤ size.toNat + 28)) = true := by
    decide
  exact of_decide_eq_true (List.all_eq_true.1 hall size h)

theorem length_probe {size : UInt16} (h : 18 ≤ size.toNat) :
    (encodeOpenConnectionRequest1 protocolVersion size).length = size.toNat := by
  have hheader : ([idOpenConnectionRequest1] ++ magic ++ [protocolVersion]).length = 18 := rfl
  calc (encodeOpenConnectionRequest1 protocolVersion size).length
      = 18 + (size.toNat - 18) := by
        rw [encodeOpenConnectionRequest1, List.length_append, hheader, List.length_replicate]
    _ = size.toNat := Nat.add_sub_cancel' h

/-- **The path is respected.** If a client gets as far as its stream, with nothing but answers of the listener to what it sent,
however late and in whatever order: the stream of the listener has the same MTU, and whatever the two streams are used for,
no packet of theirs is longer than a probe that has reached the listener, ACKs apart. -/
theorem path_respected (l : RakNetListener) (client : RakNetClient) (serverAddr clientAddr : SocketAddr)
    (pingTimestamp : UInt64) (w : World) (hw : FromListener l client serverAddr clientAddr pingTimestamp w) (mtu : UInt16)
    (h : negotiate w = .ok mtu) : ∃ size, Agreed l client serverAddr clientAddr w mtu size := by
  have hsizes : ∀ size ∈ mtuSizes, 18 ≤ size.toNat := fun size hsize => (clampMtu_probe hsize).1
  unfold negotiate at h
  obtain ⟨_, -, h⟩ := Outcome.bind_eq_ok.1 h
  obtain ⟨_, -, h⟩ := Outcome.bind_eq_ok.1 h
  obtain ⟨requested, hdiscover, h⟩ := Outcome.bind_eq_ok.1 h
  obtain ⟨_, -, h⟩ := Outcome.bind_eq_ok.1 h
  obtain ⟨reply, hreply, h⟩ := Outcome.bind_eq_ok.1 h
  obtain ⟨_, -, h⟩ := Outcome.bind_eq_ok.1 h
  obtain ⟨_, -, h⟩ := Outcome.bind_eq_ok.1 h
  cases h
  -- the first reply is the answer to a probe
  obtain ⟨i, -, guid, hreply1⟩ := discoverMtu_eq_ok hdiscover
  obtain ⟨packet1, hpacket1, hid1⟩ := packet_of_reply1 hreply1
  have hsub : ∀ size ∈ mtuSizes.take (i + 1), size ∈ mtuSizes := fun _ hsize => List.mem_of_mem_take hsize
  obtain ⟨size, hsize, hprobe, rfl⟩ := RakNetListener.probe_of_reply1 (fun size hsize => hsizes size (hsub size hsize))
    (hw.attempts i packet1 hpacket1) hid1
  rw [hpacket1, receiveOpenConnectionReply1_encode] at hreply1
  cases hreply1
  -- and the second one that to the second request
  obtain ⟨packet2, hpacket2, hid2⟩ := packet_of_reply2 hreply
  rcases hw.request2 packet2 hpacket2 with hearly | rfl | ⟨requested, mtu, hrequested, hanswer⟩
  · exact absurd hid2 (RakNetListener.answer_ne_reply2 hsizes hearly)
  · cases hid2
  · rw [hdiscover] at hrequested
    cases hrequested
    have hlistener := hanswer
    rw [l.request2_answer, clampMtu_clampMtu] at hanswer
    cases hanswer
    rw [hpacket2, receiveOpenConnectionReply2_encode] at hreply
    cases hreply
    obtain ⟨hmin, hprobed⟩ := clampMtu_probe (hsub size hsize)
    refine ⟨size, hsub size hsize, ⟨i, _, hprobe, hpacket1⟩, ⟨_, _, hdiscover, hlistener⟩, ?_⟩
    intro p nowMicros ready ops packet hpacket hack
    have hfit := Stream.packets_fit p _ (clampMtu_bounds _).1 nowMicros ready ops packet hpacket hack
    rw [length_probe hmin]
    unfold Conn.ipUdpHeaders at hfit
    omega

/-- the answer to the first probe is lost, and a second pong comes before that to the second one -/
def lossyWorld : World := { correctWorld with
  attempts := fun i => match i with
    | 0 => ⟨none, .timedOut⟩
    | 1 => ⟨none, .packet (encodeUnconnectedPong 5 77 [0x4d])⟩
    | _ => ⟨none, .packet (encodeOpenConnectionReply1 77 1228)⟩
  request2 := ⟨none, .packet (encodeOpenConnectionReply2 77 homeClient 1228)⟩ }

/-- such a negotiation, with the MTU of the second probe -/
theorem path_respected_lossy :
    negotiate lossyWorld = .ok 1228 ∧ ∃ size, Agreed ⟨77, [0x4d]⟩ ⟨42⟩ homeServer homeClient lossyWorld 1228 size := by
  have hmtu : negotiate lossyWorld = .ok 1228 := by decide
  refine ⟨hmtu, path_respected ⟨77, [0x4d]⟩ ⟨42⟩ homeServer homeClient 5 lossyWorld ?_ 1228 hmtu⟩
  refine ⟨?_, ?_⟩
  · intro i packet hpacket
    match i with
    | 0 => cases hpacket
    | 1 =>
      cases hpacket
      exact .inl (RakNetListener.answer_ping _ _ _)
    | i + 2 =>
      cases hpacket
      exact .inr ⟨1200, by simp [mtuSizes], RakNetListener.answer_probe _ (by decide)⟩
  · intro packet hpacket
    cases hpacket
    exact .inr (.inr ⟨1228, 1228, by decide, RakNetListener.request2_answer _ _ _ _ _⟩)

end RakNetClient

end RakNet
