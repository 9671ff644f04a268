/-
The receive path (`src/connection.rs`: `handle_packet` and what it calls).

A handler that fails keeps what it has done so far.

- `handleFrame_eq`: a frame is handled by the branch of its kind.
- `frameLoop_eq`: the frame loop of `handle_datagram` decodes and handles frames in turn; it does what decoding all of
  them first and handling them until one fails would do.
- `removes_ackQueue`: an ACK removes exactly the numbers its ranges name.
-/
import RakNet.Connection.Send

namespace RakNet

namespace Conn

open Lib Lib.Wire

/-! ## Control packets -/

def handleConnectedPing (env : Env) (packet : Bytes) : Act Unit := do
  let pingTimestamp ← Action.lift (decodeConnectedPing packet)
  socketSend env (encodeConnectedPong pingTimestamp env.unixMillis)

/-- `state.metrics.update_rtt` -/
def updateRtt (p : Profile) (sampleMicros : Nat) : Act Unit := ⟨fun c =>
  let (r, metrics) := ConnectionMetrics.updateRtt p sampleMicros c.shared.metrics
  (r, { c with shared := { c.shared with metrics := metrics } })⟩

def handleConnectedPong (p : Profile) (env : Env) (packet : Bytes) : Act Unit := do
  let (pingTimestamp, _pongTimestamp) ← Action.lift (decodeConnectedPong packet)
  let c ← Action.get
  match c.shared.pendingPings[pingTimestamp.toNat]? with
  | none => return ()
  | some sendTime =>
    modifyShared fun s => { s with pendingPings := s.pendingPings.erase pingTimestamp.toNat }
    updateRtt p ((env.now - sendTime) / 1000 % 2 ^ 64)

def handleConnectionRequest (env : Env) (packet : Bytes) : Act Unit := do
  let (_clientGuid, requestTimestamp) ← Action.lift (decodeConnectionRequest packet)
  let remoteAddr ← peerAddr env
  sendReliableFrame env (encodeConnectionRequestAccepted remoteAddr requestTimestamp env.unixMillis)

/-! ## Frames -/

/-- `state.ordered_channels[channel].lock()` and an update; a channel from 16 on is an index panic -/
def onChannel {α : Type} (channel : UInt8) (g : OrderedChannel → α × OrderedChannel) : Act α :=
  if h : channel.toNat < 16 then
    onShared fun s =>
      let (a, chan) := g s.orderedChannels[channel.toNat]
      (a, s.setChannel ⟨channel.toNat, h⟩ chan)
  else Action.lift .panic

/-- a login packet with the expected order index advances its channel; what the channel hands out is dropped -/
def advanceChannel (frame : Frame) : Act Unit :=
  if frame.reliability.isOrdered then
    match frame.orderIndex with
    | none => pure ()
    | some orderIdx => onChannel frame.orderChannel fun chan =>
      if orderIdx.get = chan.nextIndex then ((), (chan.insert orderIdx.get frame.payload).2) else ((), chan)
  else pure ()

/-- `deliver_frame_payload`; the log line of a fragment computes `split_info.index + 1` -/
def deliverFramePayload (p : Profile) (env : Env) (frame : Frame) : Act Unit :=
  match frame.split with
  | none => deliver frame.payload
  | some splitInfo => do
    let _ ← Action.lift (p.add 32 splitInfo.index.toNat 1)
    let reassembled ← onShared fun s =>
      let (r, q) := s.fragmentQueue.insert env.now splitInfo.id.toNat splitInfo.index.toNat splitInfo.count.toNat
        frame.payload
      (r, { s with fragmentQueue := q })
    match reassembled with
    | some data => deliver data
    | none => pure ()

/-- an unsplit ordered frame: through its channel, and out with everything that became ready -/
def deliverOrdered (frame : Frame) : Act Unit := do
  let orderIndex := (frame.orderIndex.getD (U24.new 0)).get
  let payloads ← onChannel frame.orderChannel fun chan => chan.insert orderIndex frame.payload
  Action.modify fun c => { c with appData := c.appData ++ payloads }

/-- the last part of `handle_frame`: a game packet, by reliability level -/
def handleGamePacket (p : Profile) (env : Env) (frame : Frame) : Act Unit :=
  match frame.reliability with
  | .unreliable | .unreliableSequenced => deliverFramePayload p env frame
  | .reliable | .reliableOrdered | .reliableSequenced =>
    if frame.reliability.isOrdered then
      if frame.split.isSome then deliverFramePayload p env frame else deliverOrdered frame
    else deliverFramePayload p env frame

/-- `state.mark_connected()`, then the ready notifier is taken and fired -/
def markReady : Act Unit := do
  modifyShared fun s => s.markConnected.2
  Action.modify fun c => if c.readyNotifier then { c with readyNotifier := false, notified := c.notified + 1 } else c

def handleFrame (p : Profile) (env : Env) (frame : Frame) : Act Unit :=
  match frame.payload with
  | [] => pure ()
  | packetId :: _ => do
    if packetId = idConnectedPing then handleConnectedPing env frame.payload
    else if packetId = idConnectedPong then handleConnectedPong p env frame.payload
    else if packetId = idDisconnectNotification then modifyShared SharedState.markDisconnected
    else
      let c ← Action.get
      if !c.shared.isConnected && packetId == idConnectionRequest then
        advanceChannel frame
        handleConnectionRequest env frame.payload
      else if !c.shared.isConnected && packetId == idNewIncomingConnection then
        advanceChannel frame
        markReady
      else if !c.shared.isConnected && packetId == idConnectionRequestAccepted then pure ()
      else handleGamePacket p env frame

/-- frames in turn, each with its own environment, until one fails -/
def handleFrames (p : Profile) : (Nat → Env) → List Frame → Act Unit
  | _, [] => pure ()
  | envs, frame :: rest => do
    handleFrame p (envs 0) frame
    handleFrames p (fun i => envs (i + 1)) rest

/-- `while !buf.is_empty()`: decode a frame, handle it; a decode takes at least three bytes, so the buffer's length
bounds the rounds -/
def frameLoop (p : Profile) : Nat → (Nat → Env) → Bytes → Act Unit
  | _, _, [] => pure ()
  | 0, _, _ :: _ => Action.lift .panic
  | fuel + 1, envs, x :: b => do
    let (frame, rest) ← Action.lift (Frame.decode p (x :: b))
    handleFrame p (envs 0) frame
    frameLoop p fuel (fun i => envs (i + 1)) rest

/-! ## What a frame is handled as -/

/-- the branches of `handle_frame` -/
inductive FrameKind where
  | empty
  | ping
  | pong
  | disconnect
  | request
  | incoming
  | echo
  | game
deriving DecidableEq, Repr

/-- the branch a frame takes: control packets always, login packets until the connection is established -/
def kind (c : Conn) (frame : Frame) : FrameKind :=
  match frame.payload with
  | [] => .empty
  | packetId :: _ =>
    if packetId = idConnectedPing then .ping
    else if packetId = idConnectedPong then .pong
    else if packetId = idDisconnectNotification then .disconnect
    else if !c.shared.isConnected && packetId == idConnectionRequest then .request
    else if !c.shared.isConnected && packetId == idNewIncomingConnection then .incoming
    else if !c.shared.isConnected && packetId == idConnectionRequestAccepted then .echo
    else .game

/-- the action of a branch -/
def FrameKind.act (p : Profile) (env : Env) (frame : Frame) : FrameKind → Act Unit
  | .empty => pure ()
  | .ping => handleConnectedPing env frame.payload
  | .pong => handleConnectedPong p env frame.payload
  | .disconnect => modifyShared SharedState.markDisconnected
  | .request => do
    advanceChannel frame
    handleConnectionRequest env frame.payload
  | .incoming => do
    advanceChannel frame
    markReady
  | .echo => pure ()
  | .game => handleGamePacket p env frame

theorem handleFrame_eq (p : Profile) (env : Env) (frame : Frame) (c : Conn) :
    handleFrame p env frame c = (kind c frame).act p env frame c := by
  unfold handleFrame kind
  cases hp : frame.payload with
  | nil => rfl
  | cons packetId rest =>
    dsimp only
    by_cases h1 : packetId = idConnectedPing
    · rw [if_pos h1, if_pos h1, FrameKind.act, hp]
    rw [if_neg h1, if_neg h1]
    by_cases h2 : packetId = idConnectedPong
    · rw [if_pos h2, if_pos h2, FrameKind.act, hp]
    rw [if_neg h2, if_neg h2]
    by_cases h3 : packetId = idDisconnectNotification
    · rw [if_pos h3, if_pos h3, FrameKind.act]
    rw [if_neg h3, if_neg h3, Action.get_bind]
    split_ifs with h4 h5 h6
    · rw [FrameKind.act, hp]
    · rfl
    · rfl
    · rfl

/-- only an unsplit frame of an ordered level goes through its channel -/
theorem handleGamePacket_eq (p : Profile) (env : Env) (frame : Frame) :
    handleGamePacket p env frame =
      if frame.reliability.isOrdered && frame.split.isNone then deliverOrdered frame
      else deliverFramePayload p env frame := by
  unfold handleGamePacket
  cases frame.reliability <;> cases frame.split <;> rfl

/-- **The frame loop** handles what the datagram decodes to, until a handler fails, and then ends as the decoding did. -/
theorem frameLoop_eq (p : Profile) (fuel : Nat) (envs : Nat → Env) (b : Bytes) (c : Conn) :
    frameLoop p fuel envs b c =
      (handleFrames p envs (Frame.decodeLoop p fuel b).1 >>= fun _ => Action.lift (Frame.decodeLoop p fuel b).2) c := by
  induction fuel generalizing envs b c with
  | zero => cases b <;> rfl
  | succ fuel ih =>
    cases b with
    | nil => rfl
    | cons x b =>
      cases hd : Frame.decode p (x :: b) with
      | err e => simp [frameLoop, Frame.decodeLoop, handleFrames, hd, Action.bind_apply]
      | panic => simp [frameLoop, Frame.decodeLoop, handleFrames, hd, Action.bind_apply]
      | ok r =>
        obtain ⟨frame, rest⟩ := r
        simp only [frameLoop, Frame.decodeLoop, handleFrames, hd, Action.bind_apply, Action.lift_apply]
        cases hf : handleFrame p (envs 0) frame c with
        | mk res c' =>
          cases res with
          | ok u => exact ih _ _ _
          | err e => rfl
          | panic => rfl

/-! ## Datagrams and packets -/

/-- `window.mark_received(seq.get())`, under the window's lock -/
def markReceived (seq : U24) : Act (Option Bool) := onShared fun s =>
  let (answer, window) := s.recvWindow.markReceived seq.get
  (answer, { s with recvWindow := window })

/-- `acks.insert(seq)`, under the lock of the pending list -/
def recordAck (seq : U24) : Act Unit := modifyShared fun s => { s with pendingAcks := s.pendingAcks.insert seq }

/-- `handle_datagram`: a number that is too old or was seen before ends the call before it is recorded -/
def handleDatagram (p : Profile) (envs : Nat → Env) (seq : U24) (framesData : Bytes) : Act Unit := do
  let answer ← markReceived seq
  if answer = some true then
    recordAck seq
    frameLoop p framesData.length envs framesData
  else return ()

/-- acknowledge every range of the list -/
def ackQueue (q : SendQueue) (ranges : AckRangeList) : SendQueue :=
  ranges.ranges.foldl (fun q r =>
    match r with
    | .single seq => (q.acknowledge seq.get).2
    | .range start last => (q.acknowledgeRange start.get last.get).2) q

/-- **`handle_ack` on the queue.** Exactly the numbers of the list go. -/
theorem removes_ackQueue (q : SendQueue) (l : AckRangeList) : SendQueue.Removes q (ackQueue q l) l.covers := by
  obtain ⟨rs⟩ := l
  unfold ackQueue AckRangeList.covers
  dsimp only
  induction rs generalizing q with
  | nil => exact SendQueue.Removes.refl q fun _ => rfl
  | cons r rs ih =>
    rw [List.foldl_cons]
    cases r with
    | single seq => exact (q.removes_acknowledge seq.get).trans (ih _)
    | range start last => exact (q.removes_acknowledgeRange start.get last.get).1.trans (ih _)

/-- what an acknowledgement leaves in the queue was there and is not covered -/
theorem contains_ackQueue (q : SendQueue) (l : AckRangeList) (s : Nat) :
    (ackQueue q l).contains s = true ↔ q.contains s = true ∧ l.covers s = false := by
  rw [SendQueue.contains_iff, (removes_ackQueue q l).packet?, SendQueue.contains_iff]
  cases l.covers s <;> simp

def handleAck (ranges : AckRangeList) : Act Unit :=
  modifyShared fun s => { s with sendQueue := ackQueue s.sendQueue ranges }

/-- `handle_nack` does nothing yet -/
def handleNack (_ranges : AckRangeList) : Act Unit := pure ()

def handlePacket (p : Profile) (envs : Nat → Env) (packet : Bytes) : Act Unit :=
  match packet with
  | [] => pure ()
  | packetId :: _ => do
    if packetId = idConnectedPing then handleConnectedPing (envs 0) packet
    else if packetId = idConnectedPong then handleConnectedPong p (envs 0) packet
    else if packetId = idDisconnectNotification then
      Action.lift (decodeDisconnectNotification packet)
      modifyShared SharedState.markDisconnected
    else if isDatagram packetId then
      let (seq, framesData) ← Action.lift (decodeDatagram packet)
      handleDatagram p envs seq framesData
    else if isAck packetId then
      let (_isAck, ranges) ← Action.lift (decodeAckNack packet)
      handleAck ranges
    else if isNack packetId then
      let (_isAck, ranges) ← Action.lift (decodeAckNack packet)
      handleNack ranges
    else pure ()

/-- the size of the buffer `receive_task` reads packets into -/
def recvBufferSize : Nat := 2048

/-- one packet of `receive_task`, cut to its buffer; an error is only logged -/
def receivePacket (p : Profile) (envs : Nat → Env) (packet : Bytes) : Act Unit := ⟨fun c =>
  let data := packet.take recvBufferSize
  match handlePacket p envs data c with
  | (.panic, c') => (.panic, c')
  | (_, c') => (modifyShared fun s => { s with metrics := s.metrics.recordRecv (envs 0).unixMicros data.length }) c'⟩

end Conn

end RakNet
