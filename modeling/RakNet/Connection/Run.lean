/-
Runs of one connection: every operation of its receive, send and tick tasks, in any order.

The receive window and the pending ACK list are touched by `handle_datagram` (before it looks at the frames) and by
`flush_acks`, and by nothing else; the frame handlers leave both alone (`preserves_handleFrame`).

- `reachable_wf`: in every reachable state the pending list is canonical and an untouched window has no bit set.
- `arrival_pending_iff`: exactly when a handled datagram ends up pending.
-/
import RakNet.Connection.Receive
import RakNet.Connection.Tick
import RakNet.Lib.Machine

namespace RakNet

namespace Conn

open Lib Lib.Wire

/-! ## Operations -/

/-- one operation of one of the three tasks, with everything it reads from outside -/
inductive Op where
  | receive (envs : Nat → Env) (packet : Bytes)
  | send (envs : Nat → Env) (data : Bytes)
  | flushAcks (env : Env)
  | flushNacks (env : Env)
  | checkRetransmissions (envs : Nat → Env)
  | cleanupExpired (env : Env)
  | sendKeepalivePing (env : Env)
  | markDisconnected

def Op.act (p : Profile) : Op → Act Unit
  | .receive envs packet => receivePacket p envs packet
  | .send envs data => sendTask p [(data, envs)]
  | .flushAcks env => Conn.flushAcks env
  | .flushNacks env => Conn.flushNacks env
  | .checkRetransmissions envs => Conn.checkRetransmissions envs
  | .cleanupExpired env => Conn.cleanupExpired env
  | .sendKeepalivePing env => Conn.sendKeepalivePing env
  | .markDisconnected => modifyShared SharedState.markDisconnected

def step (p : Profile) (c : Conn) (op : Op) : Conn := (op.act p c).2

def run (p : Profile) (c : Conn) (ops : List Op) : Conn := Machine.run (step p) c ops

/-! ## What the handlers leave alone -/

/-- the window and the pending ACKs -/
def ackView (c : Conn) : RecvWindow 2048 × AckRangeList := (c.shared.recvWindow, c.shared.pendingAcks)

/-- what has been delivered, and what is held back for later -/
structure Held where
  appData : List Bytes
  channels : Vector OrderedChannel 16
  fragments : FragmentQueue

def heldView (c : Conn) : Held := ⟨c.appData, c.shared.orderedChannels, c.shared.fragmentQueue⟩

/-- everything the receive side has -/
def recvView (c : Conn) : (RecvWindow 2048 × AckRangeList) × Held := (ackView c, heldView c)

/-- is the ready notifier still there, and how often was it fired -/
def notifierView (c : Conn) : Bool × Nat := (c.readyNotifier, c.notified)

/-- and the connection state with the ready notifier; sends and control packets leave all of this alone -/
def coreView (c : Conn) : (ConnectionState × Bool × Nat) × (RecvWindow 2048 × AckRangeList) × Held :=
  ((c.shared.state, notifierView c), recvView c)

/-- everything but what a frame hands to the application, to a channel or to the fragment queue -/
def restView (c : Conn) : Conn :=
  { c with
    appData := []
    shared := { c.shared with orderedChannels := Vector.replicate 16 .new, fragmentQueue := .new } }

/-- everything but what sends and control packets change: what was sent, the counters, the send queue and the metrics -/
def sendView (c : Conn) : Conn :=
  { c with
    sent := []
    framesSent := []
    shared := { c.shared with
      sendSeq := .new 0
      splitId := 0
      metrics := .new 0
      sendQueue := .new
      pendingPings := ∅
      messageIndex := .new 0
      orderIndices := Vector.replicate 16 (.new 0)
      sequenceIndex := .new 0 } }

/-- everything but the connection state and the ready notifier -/
def readyView (c : Conn) : Conn :=
  { c with readyNotifier := false, notified := 0, shared := { c.shared with state := .connecting } }

/-- the window and both pending lists; frames leave them alone -/
def windowView (c : Conn) : RecvWindow 2048 × AckRangeList × AckRangeList :=
  (c.shared.recvWindow, c.shared.pendingAcks, c.shared.pendingNacks)

open Action

theorem preserves_core {α : Type} {x : Act α} (h : Preserves sendView x) : Preserves coreView x := h.comp coreView

theorem preserves_state {α : Type} {x : Act α} (h : Preserves sendView x) : Preserves (·.shared.state) x :=
  (preserves_core h).comp fun v => v.1.1

theorem preserves_notifier {α : Type} {x : Act α} (h : Preserves sendView x) : Preserves notifierView x :=
  (preserves_core h).comp fun v => v.1.2

theorem preserves_ackView {α : Type} {x : Act α} (h : Preserves sendView x) : Preserves ackView x :=
  (preserves_core h).comp fun v => v.2.1

theorem preserves_heldView {α : Type} {x : Act α} (h : Preserves sendView x) : Preserves heldView x :=
  (preserves_core h).comp fun v => v.2.2

theorem preserves_socketSend (env : Env) (packet : Bytes) : Preserves sendView (socketSend env packet) :=
  (wire_socketSend env packet).comp sendView

/-- the part of a flush after its list was taken -/
theorem preserves_flushTail (env : Env) (l : AckRangeList) (packet : Bytes) : Preserves sendView (do
    if l.ranges.isEmpty then return ()
    else
      socketSend env packet
      recordSend env packet.length : Act Unit) :=
  Preserves.ite (preserves_pure _ _) ((preserves_socketSend env packet).bind fun _ => fun _ => rfl)

theorem preserves_sendFrame (env : Env) (payload : Bytes) (split : Option SplitInfo) :
    Preserves sendView (sendFrame env payload split) := by
  refine Preserves.bind (fun _ => rfl) fun r => Preserves.bind ?_ fun _ => preserves_modify fun _ => rfl
  refine (preserves_socketSend env _).bind fun _ => ?_
  exact Preserves.bind (fun _ => rfl) fun _ => fun _ => rfl

theorem preserves_sendChunks (id : UInt16) (count : UInt32) (envs : Nat → Env) (index : Nat) (cs : List Bytes) :
    Preserves sendView (sendChunks id count envs index cs) := by
  induction cs generalizing index with
  | nil => exact preserves_pure _ _
  | cons chunk cs ih => exact (preserves_sendFrame _ _ _).bind fun _ => ih (index + 1)

theorem preserves_sendMessage (p : Profile) (envs : Nat → Env) (data : Bytes) :
    Preserves sendView (sendMessage p envs data) := by
  refine (preserves_get _).bind fun c => (preserves_lift _ _).bind fun n => Preserves.ite ?_ ?_
  · exact preserves_sendFrame _ _ _
  · refine Preserves.bind (fun _ => rfl) fun id => (preserves_get _).bind fun c' => ?_
    refine (preserves_lift _ _).bind fun _ => (preserves_lift _ _).bind fun _ => (preserves_lift _ _).bind fun _ => ?_
    exact Preserves.ite (preserves_lift _ _) (preserves_sendChunks _ _ _ _ _)

theorem preserves_sendTask (p : Profile) (data : List (Bytes × (Nat → Env))) :
    Preserves sendView (sendTask p data) := by
  induction data with
  | nil => exact preserves_pure _ _
  | cons d data ih =>
    refine (preserves_get _).bind fun c => Preserves.ite (preserves_pure _ _) ?_
    exact (preserves_sendMessage p _ _).bind fun _ => ih

theorem preserves_onChannel {α : Type} (channel : UInt8) (g : OrderedChannel → α × OrderedChannel) :
    Preserves restView (onChannel channel g) := by
  unfold onChannel
  split_ifs
  · exact fun _ => rfl
  · exact preserves_lift _ _

theorem preserves_deliverFramePayload (p : Profile) (env : Env) (frame : Frame) :
    Preserves restView (deliverFramePayload p env frame) := by
  unfold deliverFramePayload
  cases frame.split with
  | none => exact preserves_modify fun _ => rfl
  | some info =>
    refine (preserves_lift _ _).bind fun _ => Preserves.bind (fun _ => rfl) ?_
    intro r
    cases r with
    | none => exact preserves_pure _ _
    | some data => exact preserves_modify fun _ => rfl

theorem preserves_handleGamePacket (p : Profile) (env : Env) (frame : Frame) :
    Preserves restView (handleGamePacket p env frame) := by
  have hordered : Preserves restView (deliverOrdered frame) :=
    (preserves_onChannel _ _).bind fun _ => preserves_modify fun _ => rfl
  unfold handleGamePacket
  cases frame.reliability with
  | unreliable | unreliableSequenced => exact preserves_deliverFramePayload p env frame
  | reliable | reliableOrdered | reliableSequenced =>
    exact Preserves.ite (Preserves.ite (preserves_deliverFramePayload p env frame) hordered)
      (preserves_deliverFramePayload p env frame)

theorem preserves_advanceChannel (frame : Frame) : Preserves restView (advanceChannel frame) := by
  unfold advanceChannel
  refine Preserves.ite ?_ (preserves_pure _ _)
  cases frame.orderIndex with
  | none => exact preserves_pure _ _
  | some i => exact preserves_onChannel _ _

theorem preserves_handleConnectedPing (env : Env) (packet : Bytes) :
    Preserves sendView (handleConnectedPing env packet) :=
  (preserves_lift _ _).bind fun _ => preserves_socketSend env _

theorem preserves_handleConnectedPong (p : Profile) (env : Env) (packet : Bytes) :
    Preserves sendView (handleConnectedPong p env packet) := by
  refine (preserves_lift _ _).bind fun t => (preserves_get _).bind fun c => ?_
  cases c.shared.pendingPings[t.1.toNat]? with
  | none => exact preserves_pure _ _
  | some sendTime => exact Preserves.bind (fun _ => rfl) fun _ => fun _ => rfl

theorem preserves_handleConnectionRequest (env : Env) (packet : Bytes) :
    Preserves sendView (handleConnectionRequest env packet) := by
  have haddr : Preserves sendView (peerAddr env) := by
    unfold peerAddr
    cases env.peerAddr with
    | ok addr => exact preserves_pure _ _
    | error msg => exact preserves_throw _ _
  exact (preserves_lift _ _).bind fun _ => haddr.bind fun _ => preserves_sendFrame _ _ _

theorem preserves_markReady : Preserves readyView markReady := by
  refine Preserves.bind (fun _ => rfl) fun _ => preserves_modify ?_
  intro c
  split_ifs <;> rfl

theorem heldView_markReady : Preserves heldView markReady := preserves_markReady.comp heldView

/-- **Frames do not touch the window or the pending lists.** -/
theorem preserves_handleFrame (p : Profile) (env : Env) (frame : Frame) :
    Preserves windowView (handleFrame p env frame) := by
  have hadvance : Preserves windowView (advanceChannel frame) := (preserves_advanceChannel frame).comp windowView
  intro c
  rw [handleFrame_eq]
  cases kind c frame with
  | empty | disconnect | echo => rfl
  | ping => exact (preserves_handleConnectedPing env frame.payload).comp windowView c
  | pong => exact (preserves_handleConnectedPong p env frame.payload).comp windowView c
  | request => exact (hadvance.bind fun _ => (preserves_handleConnectionRequest env frame.payload).comp windowView) c
  | incoming => exact (hadvance.bind fun _ => preserves_markReady.comp windowView) c
  | game => exact (preserves_handleGamePacket p env frame).comp windowView c

theorem preserves_frameLoop (p : Profile) (fuel : Nat) (envs : Nat → Env) (b : Bytes) :
    Preserves windowView (frameLoop p fuel envs b) := by
  induction fuel generalizing envs b with
  | zero =>
    cases b with
    | nil => exact preserves_pure _ _
    | cons x b => exact preserves_lift _ _
  | succ fuel ih =>
    cases b with
    | nil => exact preserves_pure _ _
    | cons x b => exact (preserves_lift _ _).bind fun r => (preserves_handleFrame _ _ _).bind fun _ => ih _ _

/-! ## The window and the pending ACKs along a run -/

/-- one `mark_received`, and one insertion if it answers `Some(true)` -/
def arrive (v : RecvWindow 2048 × AckRangeList) (seq : U24) : RecvWindow 2048 × AckRangeList :=
  ((v.1.markReceived seq.get).2, if (v.1.markReceived seq.get).1 = some true then v.2.insert seq else v.2)

theorem arrive_accepted {v : RecvWindow 2048 × AckRangeList} {seq : U24}
    (h : (v.1.markReceived seq.get).1 = some true) : arrive v seq = ((v.1.markReceived seq.get).2, v.2.insert seq) := by
  rw [arrive, if_pos h]

theorem arrive_refused {v : RecvWindow 2048 × AckRangeList} {seq : U24}
    (h : (v.1.markReceived seq.get).1 ≠ some true) : arrive v seq = ((v.1.markReceived seq.get).2, v.2) := by
  rw [arrive, if_neg h]

/-- **What `handle_datagram` does to the window and the pending ACKs**, however it ends. -/
theorem ackView_handleDatagram (p : Profile) (envs : Nat → Env) (seq : U24) (data : Bytes) (c : Conn) :
    ackView (handleDatagram p envs seq data c).2 = arrive (ackView c) seq := by
  have hmark : markReceived seq c = (.ok (c.shared.recvWindow.markReceived seq.get).1,
      { c with shared := { c.shared with recvWindow := (c.shared.recvWindow.markReceived seq.get).2 } }) := rfl
  unfold handleDatagram
  rw [bind_of_ok hmark]
  by_cases h : (c.shared.recvWindow.markReceived seq.get).1 = some true
  · rw [if_pos h, arrive_accepted (v := ackView c) h]
    exact (preserves_frameLoop p _ envs data).comp (fun v => (v.1, v.2.1)) _
  · rw [if_neg h, arrive_refused (v := ackView c) h]
    rfl

theorem ackView_handlePacket (p : Profile) (envs : Nat → Env) (packet : Bytes) (c : Conn) :
    ackView (handlePacket p envs packet c).2 = ackView c ∨
      ∃ seq, ackView (handlePacket p envs packet c).2 = arrive (ackView c) seq := by
  unfold handlePacket
  cases packet with
  | nil => exact Or.inl rfl
  | cons packetId rest =>
    dsimp only
    split_ifs with h1 h2 h3 h4 h5 h6
    · exact Or.inl (preserves_ackView (preserves_handleConnectedPing _ _) _)
    · exact Or.inl (preserves_ackView (preserves_handleConnectedPong _ _ _) _)
    · exact Or.inl (((preserves_lift _ _).bind fun _ => fun _ => rfl) _)
    · -- a datagram whose header decodes is one arrival
      cases hd : decodeDatagram (packetId :: rest) with
      | ok r =>
        obtain ⟨seq, data⟩ := r
        exact Or.inr ⟨seq, ackView_handleDatagram p envs seq data c⟩
      | err e => exact Or.inl rfl
      | panic => exact Or.inl rfl
    · exact Or.inl (((preserves_lift _ _).bind fun _ => fun _ => rfl) _)
    · exact Or.inl (((preserves_lift _ _).bind fun _ => fun _ => rfl) _)
    · exact Or.inl rfl

theorem ackView_receivePacket (p : Profile) (envs : Nat → Env) (packet : Bytes) (c : Conn) :
    ackView (receivePacket p envs packet c).2 = ackView (handlePacket p envs (packet.take recvBufferSize) c).2 := by
  unfold receivePacket
  dsimp only
  cases handlePacket p envs (packet.take recvBufferSize) c with
  | mk r c' => cases r <;> rfl

theorem preserves_sendAll (envs : Nat → Env) (packets : List Bytes) : Preserves sendView (sendAll envs packets) :=
  (tick_sendAll envs packets).comp sendView

/-- the flush of a nonempty list or of an empty one: nothing is pending after it -/
theorem ackView_flushAcks (env : Env) (c : Conn) : ackView (flushAcks env c).2 = (c.shared.recvWindow, .new) := by
  exact preserves_ackView (preserves_flushTail env c.shared.pendingAcks (encodeAck c.shared.pendingAcks)) _

/-- **One step.** The window and the pending ACKs stay, take one arrival, or the ACKs are flushed. -/
theorem ackView_step (p : Profile) (c : Conn) (op : Op) :
    ackView (step p c op) = ackView c ∨ (∃ seq, ackView (step p c op) = arrive (ackView c) seq) ∨
      ackView (step p c op) = (c.shared.recvWindow, .new) := by
  unfold step
  cases op with
  | receive envs packet =>
    simp only [Op.act, ackView_receivePacket]
    rcases ackView_handlePacket p envs (packet.take recvBufferSize) c with h | h
    · exact Or.inl h
    · exact Or.inr (Or.inl h)
  | send envs data => exact Or.inl (preserves_ackView (preserves_sendTask p _) c)
  | flushAcks env => exact Or.inr (Or.inr (ackView_flushAcks env c))
  | flushNacks env =>
    have htail := fun l : AckRangeList => preserves_ackView (preserves_flushTail env l (encodeNack l))
    exact Or.inl (Preserves.bind (fun _ => rfl) htail c)
  | checkRetransmissions envs =>
    exact Or.inl (preserves_ackView (Preserves.bind (fun _ => rfl) fun l => preserves_sendAll _ _) c)
  | cleanupExpired env => exact Or.inl rfl
  | sendKeepalivePing env =>
    refine Or.inl (preserves_ackView (Preserves.bind (fun _ => rfl) fun _ => ?_) c)
    exact (preserves_socketSend _ _).bind fun _ => fun _ => rfl
  | markDisconnected => exact Or.inl rfl

/-- the pending list is canonical, and a window that has counted no packet has no bit set -/
structure Wf (c : Conn) : Prop where
  acks : c.shared.pendingAcks.Inv
  window : c.shared.recvWindow.Untouched

theorem wf_new (mtu : UInt16) (nowMicros : Nat) (ready : Bool) : (new mtu nowMicros ready).Wf :=
  ⟨AckRangeList.inv_new, RecvWindow.untouched_new⟩

theorem step_wf (p : Profile) {c : Conn} (op : Op) (h : c.Wf) : (step p c op).Wf := by
  have key : ∀ v : RecvWindow 2048 × AckRangeList, ackView (step p c op) = v → v.2.Inv → v.1.Untouched →
      (step p c op).Wf := by
    rintro v rfl h1 h2
    exact ⟨h1, h2⟩
  rcases ackView_step p c op with he | ⟨seq, he⟩ | he
  · exact key _ he h.acks h.window
  · refine key _ he ?_ (h.window.markReceived _ (by norm_num))
    simp only [arrive]
    split_ifs
    · exact AckRangeList.insert_inv h.acks seq
    · exact h.acks
  · exact key _ he AckRangeList.inv_new h.window

theorem reachable_wf (p : Profile) (mtu : UInt16) (nowMicros : Nat) (ready : Bool) (ops : List Op) :
    (run p (new mtu nowMicros ready) ops).Wf :=
  Machine.run_inv (fun _ op h => step_wf p op h) (wf_new mtu nowMicros ready) ops

/-! ## Which arrivals are acknowledged -/

/-- a datagram the window refuses ends in `Ok` -/
theorem handleDatagram_refused (p : Profile) (envs : Nat → Env) (seq : U24) (data : Bytes) (c : Conn)
    (h : (c.shared.recvWindow.markReceived seq.get).1 ≠ some true) :
    (handleDatagram p envs seq data c).1 = .ok () := by
  have hmark : markReceived seq c = (.ok (c.shared.recvWindow.markReceived seq.get).1,
      { c with shared := { c.shared with recvWindow := (c.shared.recvWindow.markReceived seq.get).2 } }) := rfl
  unfold handleDatagram
  rw [bind_of_ok hmark, if_neg h]
  rfl

/-- **Exactly when an arrival is acknowledged.** In every reachable state: `handle_datagram` returning `Ok` leaves the
number pending if and only if the window accepts it (neither too old nor already received) or it was still pending
before the call. -/
theorem arrival_pending_iff (p : Profile) (mtu : UInt16) (nowMicros : Nat) (ready : Bool) (ops : List Op)
    (envs : Nat → Env) (seq : U24) (data : Bytes) :
    ((handleDatagram p envs seq data (run p (new mtu nowMicros ready) ops)).1 = .ok () →
      (handleDatagram p envs seq data (run p (new mtu nowMicros ready) ops)).2.shared.pendingAcks.Mem seq) ↔
    ((run p (new mtu nowMicros ready) ops).shared.recvWindow.tooOld seq.get = false ∧
      (run p (new mtu nowMicros ready) ops).shared.recvWindow.hasReceived seq.get = false) ∨
    (run p (new mtu nowMicros ready) ops).shared.pendingAcks.Mem seq := by
  have hwf := reachable_wf p mtu nowMicros ready ops
  generalize run p (new mtu nowMicros ready) ops = c at hwf ⊢
  have hview := congrArg Prod.snd (ackView_handleDatagram p envs seq data c)
  rw [← RecvWindow.markReceived_eq_true_iff hwf.window seq.get (by norm_num)]
  by_cases h : (c.shared.recvWindow.markReceived seq.get).1 = some true
  · have hacks : (handleDatagram p envs seq data c).2.shared.pendingAcks = c.shared.pendingAcks.insert seq := by
      rw [arrive_accepted (v := ackView c) h] at hview
      exact hview
    have hmem : ((handleDatagram p envs seq data c).2.shared.pendingAcks).Mem seq := by
      rw [hacks, AckRangeList.mem_insert hwf.acks]
      exact Or.inr rfl
    exact ⟨fun _ => Or.inl h, fun _ _ => hmem⟩
  · have hacks : (handleDatagram p envs seq data c).2.shared.pendingAcks = c.shared.pendingAcks := by
      rw [arrive_refused (v := ackView c) h] at hview
      exact hview
    rw [hacks]
    simp [h, handleDatagram_refused p envs seq data c h]

/-- datagram 0 (no frames) arrives, and its ACK is flushed -/
def receivedAndFlushed : List Op := [.receive (fun _ => quietEnv) [0x84, 0, 0, 0], .flushAcks quietEnv]

/-- **A retransmission that is not acknowledged.** Datagram 0 is accepted, its ACK is flushed (and may be lost), the
retransmitted datagram 0 is handled with `Ok`, and nothing is pending: no later ACK can name it. -/
theorem retransmission_not_acknowledged :
    (run .dev (new 1400 0 false) receivedAndFlushed).sent = [encodeAck (AckRangeList.new.insert (U24.new 0))] ∧
    (handleDatagram .dev (fun _ => quietEnv) (U24.new 0) [] (run .dev (new 1400 0 false) receivedAndFlushed)).1 = .ok () ∧
    ¬ (handleDatagram .dev (fun _ => quietEnv) (U24.new 0) []
      (run .dev (new 1400 0 false) receivedAndFlushed)).2.shared.pendingAcks.Mem (U24.new 0) := by
  have hempty : (handleDatagram .dev (fun _ => quietEnv) (U24.new 0) []
      (run .dev (new 1400 0 false) receivedAndFlushed)).2.shared.pendingAcks = .new := by decide +kernel
  refine ⟨by decide +kernel, by decide +kernel, ?_⟩
  rw [hempty]
  exact AckRangeList.not_mem_new _

end Conn

end RakNet
