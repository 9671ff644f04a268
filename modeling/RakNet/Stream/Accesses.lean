/-
Invariants of the connection of a stream.

The tasks and the calls touch the connection through a fixed set of accesses: an invariant that each of them keeps holds
along every run of the stream, whatever the order of the steps.

- `next_cases`, `run_keeps`: an invariant of the accesses is an invariant of the stream.
- `finished`: the packet whose handling a step ends.
-/
import RakNet.Stream.Basic

namespace RakNet

open Lib Lib.Wire

namespace Conn

open Action

/-- the accesses of the receive task and of the calls keep the invariant, apart from the pongs and the delivery of frames -/
structure CoreAccesses (p : Profile) (I : Conn → Prop) : Prop where
  /-- the two packets that are sent without `record_send` -/
  pong : ∀ env pingTimestamp, Keeps I (socketSend env (encodeConnectedPong pingTimestamp env.unixMillis))
  goodbye : ∀ env, Keeps I (socketSend env encodeDisconnectNotification)
  handleConnectionRequest : ∀ env packet, Keeps I (handleConnectionRequest env packet)
  state : ∀ c state, I c → I { c with shared := { c.shared with state := state } }
  notifier : ∀ c ready n, I c → I { c with readyNotifier := ready, notified := n }
  markReceived : ∀ seq, Keeps I (markReceived seq)
  recordAck : ∀ seq, Keeps I (recordAck seq)
  handleAck : ∀ ranges, Keeps I (handleAck ranges)

/-- so do those of the tick task, apart from its keepalive pings -/
structure Accesses (p : Profile) (I : Conn → Prop) : Prop extends CoreAccesses p I where
  flushAcks : ∀ env, Keeps I (flushAcks env)
  flushNacks : ∀ env, Keeps I (flushNacks env)
  checkRetransmissions : ∀ envs, Keeps I (checkRetransmissions envs)
  cleanupExpired : ∀ env, Keeps I (cleanupExpired env)

/-- and so does every other access -/
structure AllAccesses (p : Profile) (I : Conn → Prop) : Prop extends Accesses p I where
  splitId : Keeps I (onShared SharedState.nextSplitId)
  sendFrame : ∀ env payload split, Keeps I (sendFrame env payload split)
  sendKeepalivePing : ∀ env, Keeps I (sendKeepalivePing env)
  handleConnectedPong : ∀ env packet, Keeps I (handleConnectedPong p env packet)
  advanceChannel : ∀ frame, Keeps I (advanceChannel frame)
  handleGamePacket : ∀ env frame, Keeps I (handleGamePacket p env frame)

variable {p : Profile} {I : Conn → Prop}

/-- a pong, for an invariant that leaves the pending pings and the estimate apart -/
theorem keeps_handleConnectedPong (hanswered : ∀ c timestamp, I c →
      I { c with shared := { c.shared with pendingPings := c.shared.pendingPings.erase timestamp } })
    (hupdate : ∀ sample, Keeps I (updateRtt p sample)) (env : Env) (packet : Bytes) :
    Keeps I (handleConnectedPong p env packet) := by
  refine (keeps_lift I _).bind fun t => (keeps_get I).bind fun c => ?_
  cases c.shared.pendingPings[t.1.toNat]? with
  | none => exact keeps_pure I _
  | some sendTime =>
    exact Keeps.bind (fun c' hc => hanswered c' t.1.toNat hc) fun _ => hupdate _

/-! ## The send path -/

/-- a frame, for an invariant of its allocation, of its transmission and of the queue it goes to -/
theorem keeps_sendFrame (halloc : ∀ payload split, Keeps I (allocDatagram payload split))
    (htransmit : ∀ env frame datagram, datagram.head? = some (bitFlagDatagram ||| bitFlagValid) →
      Keeps I (transmit env frame datagram))
    (htrack : ∀ env seq datagram, datagram.head? = some (bitFlagDatagram ||| bitFlagValid) → Keeps I (track env seq datagram))
    (env : Env) (payload : Bytes) (split : Option SplitInfo) : Keeps I (sendFrame env payload split) := by
  refine (halloc payload split).bind_of ?_
  intro c c' r hc hr
  have hallocated := halloc payload split c hc
  rw [hr] at hallocated
  rw [allocDatagram_apply] at hr
  cases hr
  exact (htransmit env _ _ rfl).bind (fun _ => htrack env _ _ rfl) _ hallocated

/-- a connection request, for an invariant of its reply -/
theorem keeps_handleConnectionRequest (hreply : ∀ env addr requestTimestamp acceptedTimestamp,
      Keeps I (sendFrame env (encodeConnectionRequestAccepted addr requestTimestamp acceptedTimestamp) none)) (env : Env)
    (packet : Bytes) : Keeps I (handleConnectionRequest env packet) := by
  have haddr : Keeps I (peerAddr env) := by
    unfold peerAddr
    cases env.peerAddr with
    | ok addr => exact keeps_pure I _
    | error msg => exact fun _ hc => hc
  exact (keeps_lift I _).bind fun _ => haddr.bind fun _ => hreply _ _ _ _

theorem keeps_beginFragmented (hsplit : Keeps I (onShared SharedState.nextSplitId)) (data : Bytes) :
    Keeps I (beginFragmented p data) := by
  refine hsplit.bind fun _ => (keeps_get I).bind fun _ => (keeps_lift I _).bind fun _ => ?_
  refine (keeps_lift I _).bind fun _ => (keeps_lift I _).bind fun _ => Keeps.ite (keeps_lift I _) (keeps_pure I _)

theorem keeps_beginMessage (hsend : ∀ env payload split, Keeps I (sendFrame env payload split))
    (hsplit : Keeps I (onShared SharedState.nextSplitId)) (env : Env) (data : Bytes) : Keeps I (beginMessage p env data) := by
  refine (keeps_get I).bind fun _ => (keeps_lift I _).bind fun _ => Keeps.ite ?_ ?_
  · exact (hsend env data none).bind fun _ => keeps_pure I _
  · exact (keeps_beginFragmented hsplit data).bind fun r => keeps_pure I _

namespace CoreAccesses

/-! ## The receive path -/

theorem handleConnectedPing (h : CoreAccesses p I) (env : Env) (packet : Bytes) : Keeps I (handleConnectedPing env packet) :=
  (keeps_lift I _).bind fun t => h.pong env t

theorem markDisconnected (h : CoreAccesses p I) : Keeps I (modifyShared SharedState.markDisconnected) :=
  fun c hc => h.state c .disconnected hc

theorem markReady (h : CoreAccesses p I) : Keeps I markReady := by
  refine Keeps.bind (fun c hc => h.state c _ hc) fun _ => ?_
  intro c hc
  simp only [Action.modify_apply]
  split_ifs
  · exact h.notifier c false (c.notified + 1) hc
  · exact hc

theorem beginPacket (h : CoreAccesses p I) (env : Env) {packet : Bytes} {c : Conn} (hc : I c)
    (hpong : packet.head? = some idConnectedPong → I (handleConnectedPong p env packet c).2) :
    I (beginPacket p env packet c).2 := by
  unfold Conn.beginPacket
  cases packet with
  | nil => exact hc
  | cons packetId rest =>
    dsimp only
    by_cases hid : packetId = idConnectedPong
    · have hping : packetId ≠ idConnectedPing := by
        rw [hid]
        decide
      have hanswer := hpong (congrArg some hid)
      rw [if_neg hping, if_pos hid, bind_apply]
      cases hr : handleConnectedPong p env (packetId :: rest) c with
      | mk r c' =>
        rw [hr] at hanswer
        cases r <;> exact hanswer
    · rw [if_neg hid]
      refine Keeps.ite ((h.handleConnectedPing env _).bind fun _ => keeps_pure I _) ?_ c hc
      refine Keeps.ite ((keeps_lift I _).bind fun _ => h.markDisconnected.bind fun _ => keeps_pure I _) ?_
      refine Keeps.ite ((keeps_lift I _).bind fun r => (h.markReceived r.1).bind fun _ => ?_) ?_
      · exact Keeps.ite ((h.recordAck r.1).bind fun _ => keeps_pure I _) (keeps_pure I _)
      refine Keeps.ite ((keeps_lift I _).bind fun r => (h.handleAck r.2).bind fun _ => keeps_pure I _) ?_
      exact Keeps.ite ((keeps_lift I _).bind fun _ => keeps_pure I _) (keeps_pure I _)

/-! ## The frames -/

theorem handleFrame (h : CoreAccesses p I) (hadvance : ∀ frame, Keeps I (advanceChannel frame))
    (hgame : ∀ env frame, Keeps I (handleGamePacket p env frame)) (env : Env) {frame : Frame} {c : Conn} (hc : I c)
    (hpong : kind c frame = .pong → I (handleConnectedPong p env frame.payload c).2) : I (handleFrame p env frame c).2 := by
  rw [handleFrame_eq]
  cases hkind : kind c frame with
  | empty | echo => exact hc
  | disconnect => exact h.markDisconnected c hc
  | ping => exact h.handleConnectedPing env frame.payload c hc
  | pong => exact hpong hkind
  | request => exact (hadvance frame).bind (fun _ => h.handleConnectionRequest env frame.payload) c hc
  | incoming => exact (hadvance frame).bind (fun _ => h.markReady) c hc
  | game => exact hgame env frame c hc

theorem frameStep (h : CoreAccesses p I) (hadvance : ∀ frame, Keeps I (advanceChannel frame))
    (hgame : ∀ env frame, Keeps I (handleGamePacket p env frame)) (env : Env) {rest : Bytes} {c : Conn} (hc : I c)
    (hpong : ∀ x b frame rest', rest = x :: b → Frame.decode p (x :: b) = .ok (frame, rest') → kind c frame = .pong →
      I (handleConnectedPong p env frame.payload c).2) : I (frameStep p env rest c).2 := by
  cases rest with
  | nil => exact hc
  | cons x b =>
    cases hd : Frame.decode p (x :: b) with
    | ok r =>
      rw [Session.frameStep_conn hd]
      exact h.handleFrame hadvance hgame env hc (hpong x b r.1 r.2 rfl hd)
    | err e =>
      simp only [Conn.frameStep, bind_apply, lift_apply, hd]
      exact hc
    | panic =>
      simp only [Conn.frameStep, bind_apply, lift_apply, hd]
      exact hc

end CoreAccesses

/-! ## The periodic work -/

theorem Accesses.work (h : Accesses p I) (envs : Nat → Env) (pingCounter : Nat) {place : TickPlace} (hplace : place ≠ .keepalive) :
    Keeps I (Stream.work envs pingCounter place) := by
  cases place with
  | waiting | timeout | ended => exact keeps_pure I _
  | flushAcks => exact h.flushAcks (envs 0)
  | flushNacks => exact h.flushNacks (envs 0)
  | retransmit => exact Keeps.ite (h.checkRetransmissions envs) (keeps_pure I _)
  | cleanup => exact Keeps.ite (h.cleanupExpired (envs 0)) (keeps_pure I _)
  | keepalive => exact absurd rfl hplace

theorem AllAccesses.frameStep (h : AllAccesses p I) (env : Env) (rest : Bytes) {c : Conn} (hc : I c) :
    I (frameStep p env rest c).2 :=
  h.toCoreAccesses.frameStep h.advanceChannel h.handleGamePacket env hc fun _ _ frame _ _ _ _ =>
    h.handleConnectedPong env frame.payload c hc

end Conn

namespace Stream

open Conn Action

variable {p : Profile} {I : Conn → Prop}

/-! ## The steps of a stream -/

theorem sendStep_keeps (hsend : ∀ env payload split, Keeps I (sendFrame env payload split))
    (hsplit : Keeps I (onShared SharedState.nextSplitId)) (env : Env) {s : Stream} (hs : I s.conn) :
    I (s.sendStep p env).conn := by
  unfold sendStep
  cases s.sending with
  | waiting =>
    cases s.outgoing with
    | nil =>
      dsimp only
      split_ifs <;> exact hs
    | cons data rest =>
      dsimp only
      split_ifs
      · exact hs
      · have hmessage := keeps_beginMessage (p := p) hsend hsplit env data s.conn hs
        cases hr : beginMessage p env data s.conn with
        | mk r c =>
          rw [hr] at hmessage
          cases r <;> exact hmessage
  | fragments splitId totalCount index chunks =>
    cases chunks with
    | nil => exact hs
    | cons chunk rest =>
      have hframe := hsend env chunk (some ⟨totalCount, splitId, UInt32.ofNat index⟩) s.conn hs
      dsimp only
      unfold sendFragment
      cases hr : sendFrame env chunk (some ⟨totalCount, splitId, UInt32.ofNat index⟩) s.conn with
      | mk r c =>
        rw [hr] at hframe
        cases r <;> exact hframe
  | ended => exact hs

/-- does the step send a keepalive ping -/
def pings (s : Stream) (op : Op) : Bool :=
  match op with
  | .tickTask _ => decide (s.ticking = .keepalive) && decide (s.pingCounter % 50 = 0) && s.conn.shared.isConnected
  | _ => false

theorem tickStep_keeps_of (h : Accesses p I) {envs : Nat → Env} {s : Stream} (hs : I s.conn)
    (hping : s.pings (.tickTask envs) = true → I (sendKeepalivePing (envs 0) s.conn).2) : I (s.tickStep p envs).conn := by
  unfold pings at hping
  unfold tickStep
  cases hplace : s.ticking with
  | waiting =>
    dsimp only
    split_ifs
    · exact hs
    · cases p.add 32 s.pingCounter 1 <;> exact hs
  | timeout =>
    dsimp only
    split_ifs
    · exact h.state s.conn .disconnected hs
    · exact hs
  | ended => exact hs
  | flushAcks | flushNacks | retransmit | cleanup => exact h.work envs s.pingCounter TickPlace.noConfusion s.conn hs
  | keepalive =>
    show I (work envs s.pingCounter .keepalive s.conn).2
    unfold work
    rw [get_bind]
    split_ifs with hdue
    · exact hping (by simp [hplace, hdue.1, hdue.2])
    · exact hs

theorem tickStep_keeps (h : Accesses p I) (hping : ∀ env, Keeps I (sendKeepalivePing env)) (envs : Nat → Env) {s : Stream}
    (hs : I s.conn) : I (s.tickStep p envs).conn :=
  tickStep_keeps_of h hs fun _ => hping (envs 0) s.conn hs

/-- where a part of a packet leaves the receive task: the packet is over, and counted, or it is not -/
theorem settle_cases (env : Env) (len : Nat) (r : Result (Option Bytes) × Conn) :
    ((Session.settle env len r).phase = .top ∧ (Session.settle env len r).conn = Session.noteRecv env len r.2) ∨
      ((Session.settle env len r).phase ≠ .top ∧ (Session.settle env len r).conn = r.2) := by
  obtain ⟨res, c⟩ := r
  cases res with
  | ok rest =>
    cases rest with
    | none => exact .inl ⟨rfl, rfl⟩
    | some rest => exact .inr ⟨Phase.noConfusion, rfl⟩
  | err e => exact .inl ⟨rfl, rfl⟩
  | panic => exact .inr ⟨Phase.noConfusion, rfl⟩

/-- the packet whose handling the step ends: when, and how long it is -/
def finished (p : Profile) (s : Stream) (op : Op) : Option (Env × Nat) :=
  match op, s.phase with
  | .packet env packet, .waiting => if (next p s op).phase = .top then some (env, (packet.take recvBufferSize).length) else none
  | .frame env, .frames len _ => if (next p s op).phase = .top then some (env, len) else none
  | _, _ => none

theorem proceed_keeps (h : CoreAccesses p I) (env : Env) (call : Call) {c : Conn} (hc : I c) : I (call.proceed env c).2 := by
  rcases call.proceed_cases env c with ⟨-, he⟩ | ⟨-, henv, he⟩ | ⟨-, _, -, he⟩ | ⟨-, he⟩ <;> rw [he]
  · exact hc
  · have hgoodbye := h.goodbye env c hc
    rw [socketSend_ok henv] at hgoodbye
    exact hgoodbye
  · exact hc
  · exact h.state c .disconnected hc

/-- **An invariant of the accesses** is kept by every step of the stream, up to the `record_recv` at the end of a packet, if
it is by the steps of the send task and of the tick task, by the packets and by the frames. -/
theorem next_cases_of (h : CoreAccesses p I) {s : Stream} (hs : I s.conn) (op : Op)
    (hsend : ∀ env, op = .sendTask env → I (s.sendStep p env).conn)
    (htick : ∀ envs, op = .tickTask envs → I (s.tickStep p envs).conn)
    (hpacket : ∀ env packet, op = .packet env packet → s.phase = .waiting →
      I (beginPacket p env (packet.take recvBufferSize) s.conn).2)
    (hframe : ∀ env len rest, op = .frame env → s.phase = .frames len rest → I (frameStep p env rest s.conn).2) :
    (finished p s op = none ∧ I (next p s op).conn) ∨
      ∃ env len c, finished p s op = some (env, len) ∧ I c ∧ (next p s op).conn = Session.noteRecv env len c := by
  have hsettle : ∀ env len (r : Result (Option Bytes) × Conn), I r.2 →
      finished p s op = (if (next p s op).phase = .top then some (env, len) else none) →
      (next p s op).closers.session = Session.settle env len r →
      (finished p s op = none ∧ I (next p s op).conn) ∨
        ∃ env len c, finished p s op = some (env, len) ∧ I c ∧ (next p s op).conn = Session.noteRecv env len c := by
    intro env len r hr hfinished hsession
    have hphase : (next p s op).phase = (Session.settle env len r).phase := congrArg Session.phase hsession
    have hconn : (next p s op).conn = (Session.settle env len r).conn := congrArg Session.conn hsession
    rw [hfinished, hphase, hconn]
    rcases settle_cases env len r with ⟨htop, hend⟩ | ⟨htop, hgoes⟩
    · rw [if_pos htop, hend]
      exact .inr ⟨env, len, r.2, rfl, hr, rfl⟩
    · rw [if_neg htop, hgoes]
      exact .inl ⟨rfl, hr⟩
  cases op with
  | check =>
    refine .inl ⟨rfl, ?_⟩
    show I (Session.step p s.closers.session .check).conn
    unfold Session.step
    cases s.closers.session.phase with
    | top =>
      dsimp only
      split_ifs
      · exact h.state s.conn .disconnected hs
      · exact hs
    | _ => exact hs
  | packet env packet =>
    cases hph : s.closers.session.phase with
    | waiting =>
      refine hsettle env (packet.take recvBufferSize).length _ (hpacket env packet rfl hph) ?_ ?_
      · simp only [finished, phase, hph]
      · simp only [next, step, onSession, Session.step, hph]
        rfl
    | _ => exact .inl ⟨by simp only [finished, phase, hph], by simpa only [next, step, onSession, Session.step, hph] using hs⟩
  | socketError =>
    refine .inl ⟨rfl, ?_⟩
    show I (Session.step p s.closers.session .recvError).conn
    unfold Session.step
    cases s.closers.session.phase with
    | waiting => exact h.state s.conn .disconnected hs
    | _ => exact hs
  | frame env =>
    cases hph : s.closers.session.phase with
    | frames len rest =>
      refine hsettle env len _ (hframe env len rest rfl hph) ?_ ?_
      · simp only [finished, phase, hph]
      · simp only [next, step, onSession, Session.step, hph]
        rfl
    | _ => exact .inl ⟨by simp only [finished, phase, hph], by simpa only [next, step, onSession, Session.step, hph] using hs⟩
  | sendTask env => exact .inl ⟨rfl, hsend env rfl⟩
  | tickTask envs => exact .inl ⟨rfl, htick envs rfl⟩
  | send data =>
    refine .inl ⟨rfl, ?_⟩
    unfold next step
    dsimp only
    split_ifs
    · exact hs
    · rw [sendCall_conn]
      exact hs
  | recv =>
    refine .inl ⟨rfl, ?_⟩
    unfold next step
    dsimp only
    split_ifs
    · exact hs
    · rw [recvCall_conn]
      exact hs
  | close =>
    refine .inl ⟨rfl, ?_⟩
    unfold next step
    dsimp only
    split_ifs
    · exact hs
    · exact h.state s.conn _ hs
  | proceed i env =>
    refine .inl ⟨rfl, ?_⟩
    unfold next step
    dsimp only
    split_ifs
    · exact hs
    · unfold Closers.step
      dsimp only
      cases s.closers.calls[i]? with
      | none => exact hs
      | some call => exact proceed_keeps h env call hs
  | drop => exact .inl ⟨rfl, h.state s.conn .disconnected hs⟩

theorem next_cases (h : AllAccesses p I) {s : Stream} (hs : I s.conn) (op : Op) :
    (finished p s op = none ∧ I (next p s op).conn) ∨
      ∃ env len c, finished p s op = some (env, len) ∧ I c ∧ (next p s op).conn = Session.noteRecv env len c :=
  next_cases_of h.toCoreAccesses hs op (fun env _ => sendStep_keeps h.sendFrame h.splitId env hs)
    (fun envs _ => tickStep_keeps h.toAccesses h.sendKeepalivePing envs hs)
    (fun env _ _ _ => h.beginPacket env hs fun _ => h.handleConnectedPong env _ s.conn hs)
    fun env _ rest _ _ => h.frameStep env rest hs

/-- **An invariant of the accesses** that `record_recv` keeps as well holds along every run of a stream. -/
theorem run_keeps (h : AllAccesses p I) (hrecv : ∀ env len c, I c → I (Session.noteRecv env len c)) {s : Stream}
    (hs : I s.conn) (ops : List Op) : I (run p s ops).conn := by
  have hstep : ∀ (s : Stream) op, I s.conn → I (next p s op).conn := by
    intro s op hs
    rcases next_cases h hs op with ⟨-, hnext⟩ | ⟨env, len, c, -, hc, hnext⟩
    · exact hnext
    · rw [hnext]
      exact hrecv env len c hc
  exact Machine.run_inv hstep hs ops

end Stream

end RakNet
