/-
The sizes of the packets a stream sends.

A message goes out whole or in chunks, both below the MTU by more than their headers; the other packets are small, and what
is sent again was sent before. Only an ACK has as many records as there are ranges to report.

- `AllFit`: the packets the socket took and those that may be sent again.
- `packets_fit`: along every run of a stream everything but ACKs fits, with its IP and UDP headers.
-/
import RakNet.Connection.Fits
import RakNet.Stream.Handle

namespace RakNet

open Lib Lib.Wire

namespace Conn

open Action

/-- a packet that is neither an ACK nor a NACK fits, with its IP and UDP headers -/
def FitsMtu (mtu : UInt16) (packet : Bytes) : Prop :=
  packet.head? ≠ some idAck → packet.head? ≠ some idNack → packet.length + ipUdpHeaders ≤ mtu.toNat

/-- a piece of a message leaves room for the headers of its frame and its datagram -/
def LeavesRoom (mtu : UInt16) (piece : Bytes × Option SplitInfo) : Prop :=
  piece.1.length + (42 + if piece.2.isSome then 10 else 0) ≤ mtu.toNat

/-- everything that was sent fits, and everything that may be sent again -/
structure AllFit (mtu : UInt16) (sent : List Bytes) (queue : SendQueue) : Prop where
  sent : ∀ packet ∈ sent, FitsMtu mtu packet
  queued : queue.Holds (FitsMtu mtu)

def Fitting (mtu : UInt16) (c : Conn) : Prop := AllFit mtu c.sent c.shared.sendQueue

variable {mtu : UInt16}

theorem AllFit.send {sent : List Bytes} {queue : SendQueue} (h : AllFit mtu sent queue) {packet : Bytes}
    (hpacket : FitsMtu mtu packet) : AllFit mtu (sent ++ [packet]) queue := by
  refine ⟨?_, h.queued⟩
  intro b hb
  rcases List.mem_append.1 hb with hold | hnew
  · exact h.sent b hold
  · rw [List.mem_singleton.1 hnew]
    exact hpacket

theorem fitsMtu_of_length {packet : Bytes} (h : packet.length + ipUdpHeaders ≤ mtu.toNat) : FitsMtu mtu packet :=
  fun _ _ => h

theorem fitsMtu_ack {l : AckRangeList} : FitsMtu mtu (encodeAck l) := fun hack _ => absurd rfl hack

theorem fitsMtu_nack {l : AckRangeList} : FitsMtu mtu (encodeNack l) := fun _ hnack => absurd rfl hnack

/-- the datagram of a piece that leaves room -/
theorem LeavesRoom.fitsMtu {payload : Bytes} {split : Option SplitInfo} (h : LeavesRoom mtu (payload, split))
    (s : SharedState) : FitsMtu mtu (nextDatagram s payload split) := by
  apply fitsMtu_of_length
  unfold LeavesRoom at h
  rw [nextDatagram, length_encodeDatagram, nextFrame, encodedSize_buildFrame, ipUdpHeaders]
  dsimp only at h
  omega

/-! ## The accesses -/

theorem fitting_send (env : Env) {packet : Bytes} (hpacket : FitsMtu mtu packet) :
    Keeps (Fitting mtu) (socketSend env packet) := by
  intro c hc
  cases henv : env.sendError with
  | none =>
    rw [socketSend_ok henv]
    exact AllFit.send hc hpacket
  | some msg =>
    rw [socketSend_err henv]
    exact hc

theorem fitting_sendFrame (env : Env) {payload : Bytes} {split : Option SplitInfo} (h : LeavesRoom mtu (payload, split)) :
    Keeps (Fitting mtu) (sendFrame env payload split) := by
  intro c hc
  cases henv : env.sendError with
  | none =>
    have hdatagram := h.fitsMtu c.shared
    rw [sendFrame_ok henv]
    exact ⟨(AllFit.send hc hdatagram).sent, hc.queued.insert env.now c.shared.sendSeq.load.get hdatagram⟩
  | some msg =>
    rw [sendFrame_err henv]
    exact hc

theorem fitting_sendAll (envs : Nat → Env) {packets : List Bytes} (hpackets : ∀ b ∈ packets, FitsMtu mtu b) :
    Keeps (Fitting mtu) (sendAll envs packets) := by
  induction packets generalizing envs with
  | nil => exact keeps_pure _ _
  | cons packet packets ih =>
    refine (fitting_send (envs 0) (hpackets packet List.mem_cons_self)).bind fun _ => ?_
    exact Keeps.bind (fun _ hc => hc) fun _ => ih _ fun b hb => hpackets b (List.mem_cons_of_mem _ hb)

theorem fitting_checkRetransmissions (envs : Nat → Env) : Keeps (Fitting mtu) (checkRetransmissions envs) := by
  intro c hc
  unfold checkRetransmissions
  rw [bind_apply]
  refine fitting_sendAll envs ?_ _ ⟨hc.sent, hc.queued.getExpired _ _ _⟩
  intro b hb
  exact hc.queued.expired hb

/-- the reply to a connection request, with the longest addresses there are -/
theorem leavesRoom_reply (hmtu : 576 ≤ mtu.toNat) (addr : SocketAddr) (requestTimestamp acceptedTimestamp : UInt64) :
    LeavesRoom mtu (encodeConnectionRequestAccepted addr requestTimestamp acceptedTimestamp, none) := by
  have haddress : ∀ a : SocketAddr, (writeAddress a).length ≤ 29 := by
    intro a
    cases a <;> simp [writeAddress]
  have haddr := haddress addr
  have hlen : (encodeConnectionRequestAccepted addr requestTimestamp acceptedTimestamp).length ≤ 200 := by
    simp [encodeConnectionRequestAccepted, unspecifiedAddr, writeAddress] at haddr ⊢
    omega
  unfold LeavesRoom
  dsimp only
  rw [if_neg (by simp)]
  omega

/-- **What a stream sends fits** under every access but the frames of the send task. -/
theorem accesses_fitting (p : Profile) (hmtu : 576 ≤ mtu.toNat) : Accesses p (Fitting mtu) where
  pong env _ := fitting_send env (fitsMtu_of_length (by simp [encodeConnectedPong, ipUdpHeaders]; omega))
  goodbye env := fitting_send env (fitsMtu_of_length (by simp [encodeDisconnectNotification, ipUdpHeaders]; omega))
  handleConnectionRequest := keeps_handleConnectionRequest fun env addr t t' =>
    fitting_sendFrame env (leavesRoom_reply hmtu addr t t')
  state _ _ hc := hc
  notifier _ _ _ hc := hc
  flushAcks env := Keeps.bind (fun _ hc => hc) fun _ => Keeps.ite (keeps_pure _ _)
    ((fitting_send env fitsMtu_ack).bind fun _ => fun _ hc => hc)
  flushNacks env := Keeps.bind (fun _ hc => hc) fun _ => Keeps.ite (keeps_pure _ _)
    ((fitting_send env fitsMtu_nack).bind fun _ => fun _ hc => hc)
  checkRetransmissions := fitting_checkRetransmissions
  cleanupExpired _ := fun _ hc => hc
  markReceived _ := fun _ hc => hc
  recordAck _ := fun _ hc => hc
  handleAck ranges := fun c hc => ⟨hc.sent, hc.queued.removes (removes_ackQueue c.shared.sendQueue ranges)⟩

theorem fitting_sendKeepalivePing (hmtu : 576 ≤ mtu.toNat) (env : Env) : Keeps (Fitting mtu) (sendKeepalivePing env) :=
  Keeps.bind (fun _ hc => hc) fun _ =>
    (fitting_send env (fitsMtu_of_length (by simp [encodeConnectedPing, ipUdpHeaders]; omega))).bind fun _ => fun _ hc => hc

/-! ## The send task -/

/-- the chunks a message is cut into, whatever its length -/
theorem beginFragmented_chunks {p : Profile} {data : Bytes} {c c' : Conn} (hmtu : 80 ≤ c.shared.mtu.toNat)
    {r : UInt16 × UInt32 × List Bytes} (h : beginFragmented p data c = (.ok r, c')) :
    r.2.2 = chunks data (c.shared.mtu.toNat - 80) := by
  have hsplit : onShared SharedState.nextSplitId c = (.ok c.shared.splitId, splitAllocated c) := rfl
  have hsame : (splitAllocated c).shared.mtu = c.shared.mtu := rfl
  unfold beginFragmented at h
  rw [Action.bind_of_ok hsplit, Action.get_bind, hsame, Profile.sub_of_le p hmtu,
    Action.bind_of_ok (Action.lift_apply _ _)] at h
  have hpanic : Yields (fun r : UInt16 × UInt32 × List Bytes => r.2.2 = chunks data (c.shared.mtu.toNat - 80))
      (Action.lift .panic : Act (UInt16 × UInt32 × List Bytes)) := by
    intro _ _ _ hp
    cases hp
  exact Yields.bind (fun _ => Yields.bind fun _ => Yields.ite hpanic (yields_pure rfl)) _ _ _ h

end Conn

namespace Stream

open Conn Action

variable {mtu : UInt16}

/-- everything fits, and so does what is left of the message the send task is in -/
structure KeepsWithin (mtu : UInt16) (s : Stream) : Prop where
  conn : Fitting mtu s.conn
  place : ∀ piece ∈ s.sending.parts, LeavesRoom mtu piece
  mtu : s.conn.shared.mtu = mtu

/-- the chunks of a message leave room for their headers -/
theorem leavesRoom_headed (hmtu : 576 ≤ mtu.toNat) {id : UInt16} {count : UInt32} {index : Nat} {data : Bytes} :
    ∀ piece ∈ headed id count index (chunks data (mtu.toNat - 80)), LeavesRoom mtu piece := by
  intro piece hpiece
  obtain ⟨i, hchunk, hinfo⟩ := mem_headed hpiece
  have hlen := length_le_of_mem_chunks (List.mem_of_getElem? hchunk)
  unfold LeavesRoom
  rw [hinfo, Option.isSome_some, if_pos rfl]
  omega

/-- the step that begins a message -/
theorem beginMessage_fitting (hmtu : 576 ≤ mtu.toNat) (p : Profile) (env : Env) (data : Bytes) {c : Conn}
    (hc : Fitting mtu c) (hsame : c.shared.mtu = mtu) :
    Fitting mtu (beginMessage p env data c).2 ∧
      ∀ place c', beginMessage p env data c = (.ok place, c') → ∀ piece ∈ place.parts, LeavesRoom mtu piece := by
  cases hwhole : isWhole mtu.toNat data.length with
  | true =>
    have hlen : data.length ≤ mtu.toNat - 60 := of_decide_eq_true hwhole
    have hroom : LeavesRoom mtu (data, none) := by
      unfold LeavesRoom
      dsimp only
      rw [if_neg (by simp)]
      omega
    rw [beginMessage_whole p env (by rw [hsame]; omega) (by rw [hsame]; exact hwhole)]
    refine ⟨((fitting_sendFrame env hroom).bind fun _ => keeps_pure _ _) c hc, ?_⟩
    intro place c' hr
    have hplace : Yields (fun place : SendPlace => ∀ piece ∈ place.parts, LeavesRoom mtu piece)
        (sendFrame env data none >>= fun _ => pure .waiting) :=
      Yields.bind fun _ => yields_pure fun _ hpiece => absurd hpiece List.not_mem_nil
    exact hplace _ _ _ hr
  | false =>
    have hlong : ¬ data.length ≤ mtu.toNat - 60 := of_decide_eq_false hwhole
    have hbegin : beginMessage p env data c =
        (beginFragmented p data >>= fun r => pure (.fragments r.1 r.2.1 0 r.2.2)) c := by
      unfold beginMessage
      rw [Action.get_bind, hsame, Profile.sub_of_le p (by omega), Action.bind_of_ok (Action.lift_apply _ _), if_neg hlong]
    have hkeeps : Keeps (Fitting mtu) (beginFragmented p data) := keeps_beginFragmented (fun _ hc => hc) data
    rw [hbegin]
    refine ⟨(hkeeps.bind fun _ => keeps_pure _ _) c hc, ?_⟩
    intro place c' hr
    rw [Action.bind_apply] at hr
    cases hf : beginFragmented p data c with
    | mk res c'' =>
      rw [hf] at hr
      cases res with
      | ok r =>
        cases hr
        have hchunks := beginFragmented_chunks (by rw [hsame]; omega) hf
        rw [SendPlace.parts, hchunks, hsame]
        exact leavesRoom_headed hmtu
      | err e | panic => cases hr

/-- a step of the send task -/
theorem KeepsWithin.sendStep {s : Stream} (h : KeepsWithin mtu s) (hmtu : 576 ≤ mtu.toNat) (p : Profile) (env : Env) :
    Fitting mtu (s.sendStep p env).conn ∧ ∀ piece ∈ (s.sendStep p env).sending.parts, LeavesRoom mtu piece := by
  have hnone : ∀ piece ∈ SendPlace.ended.parts, LeavesRoom mtu piece := fun _ hpiece => absurd hpiece List.not_mem_nil
  unfold Stream.sendStep
  cases hs : s.sending with
  | waiting =>
    cases hq : s.outgoing with
    | nil =>
      dsimp only
      split_ifs
      · exact ⟨h.conn, hnone⟩
      · exact ⟨h.conn, h.place⟩
    | cons data rest =>
      dsimp only
      split_ifs
      · exact ⟨h.conn, hnone⟩
      · obtain ⟨hconn, hplace⟩ := beginMessage_fitting hmtu p env data h.conn h.mtu
        cases hr : beginMessage p env data s.conn with
        | mk r c =>
          rw [hr] at hconn
          cases r with
          | ok place => exact ⟨hconn, hplace place c hr⟩
          | err e | panic => exact ⟨hconn, hnone⟩
  | fragments splitId totalCount index cs =>
    have hparts := h.place
    rw [hs] at hparts
    cases cs with
    | nil => exact ⟨h.conn, hnone⟩
    | cons chunk rest =>
      have hframe := fitting_sendFrame env (hparts (chunk, some ⟨totalCount, splitId, UInt32.ofNat index⟩) List.mem_cons_self)
        s.conn h.conn
      dsimp only
      unfold sendFragment
      cases hr : sendFrame env chunk (some ⟨totalCount, splitId, UInt32.ofNat index⟩) s.conn with
      | mk r c =>
        rw [hr] at hframe
        cases r with
        | ok u => exact ⟨hframe, fun piece hpiece => hparts piece (List.mem_cons_of_mem _ hpiece)⟩
        | err e | panic => exact ⟨hframe, hnone⟩
  | ended => exact ⟨h.conn, h.place⟩

/-- **One step** sends nothing that does not fit. -/
theorem KeepsWithin.next {s : Stream} (h : KeepsWithin mtu s) (hmtu : 576 ≤ mtu.toNat) (p : Profile) (op : Op) :
    KeepsWithin mtu (Stream.next p s op) := by
  have haccesses := accesses_fitting p hmtu
  have hpong : ∀ env packet, Keeps (Fitting mtu) (handleConnectedPong p env packet) :=
    keeps_handleConnectedPong (fun _ _ hc => hc) fun _ _ hc => hc
  refine ⟨?_, ?_, (mtu_next p s op).trans h.mtu⟩
  · have hcases := next_cases_of haccesses.toCoreAccesses h.conn op (fun env _ => (h.sendStep hmtu p env).1)
      (fun envs _ => tickStep_keeps haccesses (fitting_sendKeepalivePing hmtu) envs h.conn)
      (fun env _ _ _ => haccesses.beginPacket env h.conn fun _ => hpong env _ s.conn h.conn)
      fun env _ rest _ _ => haccesses.frameStep (fun frame => (preserves_advanceChannel frame).keeps (Fitting mtu))
        (fun env frame => (preserves_handleGamePacket p env frame).keeps (Fitting mtu)) env h.conn
        fun _ _ frame _ _ _ _ => hpong env frame.payload s.conn h.conn
    rcases hcases with ⟨-, hnext⟩ | ⟨env, len, c, -, hc, hnext⟩
    · exact hnext
    · rw [hnext]
      exact hc
  · cases op with
    | sendTask env => exact (h.sendStep hmtu p env).2
    | send data =>
      have hsame : (Stream.next p s (.send data)).sending = s.sending := by
        unfold Stream.next step sendCall
        dsimp only
        split_ifs <;> rfl
      rw [hsame]
      exact h.place
    | _ =>
      rw [(sending_next p s (fun _ => Op.noConfusion) fun _ => Op.noConfusion).1]
      exact h.place

/-- **Everything fits.** Along every run of a fresh stream with an MTU the handshake can agree on, whatever the application
hands to `send`: every packet the socket took, ACKs apart, is within the MTU together with its IP and UDP headers. -/
theorem packets_fit (p : Profile) (mtu : UInt16) (hmtu : 576 ≤ mtu.toNat) (nowMicros : Nat) (ready : Bool) (ops : List Op) :
    ∀ packet ∈ (run p (new mtu nowMicros ready) ops).conn.sent, packet.head? ≠ some idAck →
      packet.length + ipUdpHeaders ≤ mtu.toNat := by
  have hfresh : KeepsWithin mtu (new mtu nowMicros ready) := by
    refine ⟨⟨?_, SendQueue.holds_new⟩, ?_, rfl⟩
    · intro packet hpacket
      cases hpacket
    · intro piece hpiece
      cases hpiece
  have hrun : KeepsWithin mtu (run p (new mtu nowMicros ready) ops) :=
    Machine.run_inv (fun _ op hs => hs.next hmtu p op) hfresh ops
  intro packet hpacket hack
  exact hrun.conn.sent packet hpacket hack ((within_limits p mtu nowMicros ready ops).noNack packet hpacket)

/-- a message of more than one packet -/
theorem packets_fit_login :
    (∀ packet ∈ (run .dev (new 576 0 true)
        (login ++ [.send (List.replicate 600 1), .sendTask quietEnv, .sendTask quietEnv, .sendTask quietEnv])).conn.sent,
      packet.head? ≠ some idAck → packet.length + ipUdpHeaders ≤ (576 : UInt16).toNat) ∧
    (run .dev (new 576 0 true)
        (login ++ [.send (List.replicate 600 1), .sendTask quietEnv, .sendTask quietEnv, .sendTask quietEnv])).conn.sent.map
      List.length = [520, 128] :=
  ⟨packets_fit .dev 576 (by decide) 0 true _, by decide +kernel⟩

end Stream

end RakNet
