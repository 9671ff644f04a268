/-
A sender, a receiver and the network between them, step by step.

The steps are those between which other tasks can run: a send is allocated, transmitted and tracked; a retransmission
is collected and resent packet by packet; an arriving datagram is marked in the window and then recorded for an ACK; a
flush takes the pending list and then sends it. Each step is the action of the connection model that the code performs
there (`sendFrame_steps`, `flushAcks_steps`, `handleDatagram_steps` put them back together).

The network loses, duplicates and reorders, and does not forge: an arrival is any packet the other side ever handed to
its socket, cut to the receive buffer, any number of times or never.

Every datagram has an identity, the number of its allocation; its sequence number is that modulo 2^24. The lists of
identities and the logs `accepted` and `answered` are bookkeeping no step reads.

- `transmit_cases`, `arrive_cases` and so on: what each step can do.
-/
import RakNet.Connection.Receive
import RakNet.Connection.Run
import RakNet.Connection.Tick
import RakNet.Lib.Machine

namespace RakNet

open Lib Lib.Wire

/-! ## The system -/

/-- a datagram between its allocation and its insertion into the send queue -/
structure Sending where
  id : Nat
  seq : U24
  frame : Frame
  datagram : Bytes
  sent : Bool
deriving DecidableEq

structure Net where
  sender : Conn
  receiver : Conn
  /-- sends in progress -/
  sending : List Sending
  /-- packets collected for retransmission, not yet resent -/
  resending : List (Nat × Bytes)
  /-- accepted datagrams, not yet recorded for an ACK -/
  arriving : List (Nat × U24)
  /-- ACK lists taken by a flush, not yet sent -/
  flushing : List (AckRangeList × List Nat)
  /-- datagrams allocated so far -/
  allocated : Nat
  /-- the datagram each packet of `sender.sent` is a copy of -/
  sentIds : List Nat
  /-- the datagram each key of the send queue was inserted for -/
  holder : NatMap Nat
  /-- numbers `mark_received` answered `Some(true)` to -/
  accepted : List Nat
  /-- the datagrams recorded in the pending list -/
  pendingIds : List Nat
  /-- the datagrams each packet of `receiver.sent` acknowledges -/
  ackIds : List (List Nat)
  /-- datagrams whose ACK `handle_ack` has processed -/
  answered : List Nat

namespace Net

/-- two fresh connections -/
def init (mtu mtu' : UInt16) (nowMicros nowMicros' : Nat) : Net where
  sender := .new mtu nowMicros false
  receiver := .new mtu' nowMicros' false
  sending := []
  resending := []
  arriving := []
  flushing := []
  allocated := 0
  sentIds := []
  holder := ∅
  accepted := []
  pendingIds := []
  ackIds := []
  answered := []

inductive Op where
  | alloc (payload : Bytes) (split : Option SplitInfo)
  | transmit (i : Nat) (env : Env)
  | track (i : Nat) (env : Env)
  | expire (env : Env)
  | resend (env : Env)
  | arrive (k : Nat)
  | record (i : Nat)
  | takeAcks
  | sendAcks (env : Env)
  | ackArrive (k : Nat)

/-- start a send: allocate and encode -/
def alloc (n : Net) (payload : Bytes) (split : Option SplitInfo) : Net :=
  match Conn.allocDatagram payload split n.sender with
  | (.ok (seq, frame, datagram), c) =>
    { n with
      sender := c
      sending := n.sending ++ [⟨n.allocated, seq, frame, datagram, false⟩]
      allocated := n.allocated + 1 }
  | (_, c) => { n with sender := c }

/-- hand the datagram of a send to the socket; an error ends the send -/
def transmit (n : Net) (i : Nat) (env : Env) : Net :=
  match n.sending[i]? with
  | none => n
  | some x =>
    if x.sent then n
    else match Conn.transmit env x.frame x.datagram n.sender with
      | (.ok (), c) =>
        { n with sender := c, sending := n.sending.set i { x with sent := true }, sentIds := n.sentIds ++ [x.id] }
      | (_, c) => { n with sender := c, sending := n.sending.eraseIdx i }

/-- put the datagram of a send into the send queue; the send has returned -/
def track (n : Net) (i : Nat) (env : Env) : Net :=
  match n.sending[i]? with
  | none => n
  | some x =>
    if x.sent then
      { n with
        sender := (Conn.track env x.seq x.datagram n.sender).2
        sending := n.sending.eraseIdx i
        holder :=
          if (n.sender.shared.sendQueue.insert env.now x.seq.get x.datagram).1 then n.holder.insert x.seq.get x.id
          else n.holder }
    else n

/-- collect the expired packets -/
def expire (n : Net) (env : Env) : Net :=
  let (expired, q) := n.sender.shared.sendQueue.getExpired env.now (n.sender.shared.metrics.rttNanos * 3) 3
  { n with
    sender := { n.sender with shared := { n.sender.shared with sendQueue := q } }
    resending := n.resending ++ expired.map fun e => ((n.holder[e.1]?).getD 0, e.2) }

/-- resend the next collected packet; an error gives up the rest -/
def resend (n : Net) (env : Env) : Net :=
  match n.resending with
  | [] => n
  | (id, packet) :: rest =>
    match Conn.socketSend env packet n.sender with
    | (.ok (), c) =>
      { n with sender := (Conn.recordSend env packet.length c).2, resending := rest, sentIds := n.sentIds ++ [id] }
    | (_, c) => { n with sender := c, resending := [] }

/-- a packet of the sender arrives: `decode_datagram`, then `mark_received` -/
def arrive (n : Net) (k : Nat) : Net :=
  match n.sender.sent[k]?, n.sentIds[k]? with
  | some packet, some id =>
    match decodeDatagram (packet.take Conn.recvBufferSize) with
    | .ok (seq, _) =>
      match Conn.markReceived seq n.receiver with
      | (.ok (some true), c) =>
        { n with receiver := c, accepted := n.accepted ++ [seq.get], arriving := n.arriving ++ [(id, seq)] }
      | (_, c) => { n with receiver := c }
    | _ => n
  | _, _ => n

/-- record an accepted datagram in the pending list -/
def record (n : Net) (i : Nat) : Net :=
  match n.arriving[i]? with
  | none => n
  | some (id, seq) =>
    { n with
      receiver := (Conn.recordAck seq n.receiver).2
      arriving := n.arriving.eraseIdx i
      pendingIds := n.pendingIds ++ [id] }

/-- take the pending list, unless it is empty -/
def takeAcks (n : Net) : Net :=
  if n.receiver.shared.pendingAcks.ranges.isEmpty then n
  else
    { n with
      receiver := { n.receiver with shared := { n.receiver.shared with pendingAcks := .new } }
      flushing := n.flushing ++ [(n.receiver.shared.pendingAcks, n.pendingIds)]
      pendingIds := [] }

/-- send a taken list; an error drops it -/
def sendAcks (n : Net) (env : Env) : Net :=
  match n.flushing with
  | [] => n
  | (l, ids) :: rest =>
    match Conn.socketSend env (encodeAck l) n.receiver with
    | (.ok (), c) =>
      { n with
        receiver := (Conn.recordSend env (encodeAck l).length c).2
        flushing := rest
        ackIds := n.ackIds ++ [ids] }
    | (_, c) => { n with receiver := c, flushing := rest }

/-- a packet of the receiver arrives: `decode_ack_nack`, then `handle_ack` -/
def ackArrive (n : Net) (k : Nat) : Net :=
  match n.receiver.sent[k]?, n.ackIds[k]? with
  | some packet, some ids =>
    match decodeAckNack (packet.take Conn.recvBufferSize) with
    | .ok (true, ranges) =>
      { n with
        sender := (Conn.handleAck ranges n.sender).2
        answered := n.answered ++ ids.filter fun id => ranges.covers (id % 2 ^ 24) }
    | _ => n
  | _, _ => n

def step (n : Net) : Op → Net
  | .alloc payload split => n.alloc payload split
  | .transmit i env => n.transmit i env
  | .track i env => n.track i env
  | .expire env => n.expire env
  | .resend env => n.resend env
  | .arrive k => n.arrive k
  | .record i => n.record i
  | .takeAcks => n.takeAcks
  | .sendAcks env => n.sendAcks env
  | .ackArrive k => n.ackArrive k

def run (n : Net) (ops : List Op) : Net := Machine.run step n ops

/-! ## What each step can do -/

/-- the connection after the socket took a packet that is no new datagram -/
def sentAlso (env : Env) (packet : Bytes) (c : Conn) : Conn :=
  { c with
    sent := c.sent ++ [packet]
    shared := { c.shared with metrics := c.shared.metrics.recordSend env.unixMicros packet.length } }

theorem alloc_eq (n : Net) (payload : Bytes) (split : Option SplitInfo) :
    n.alloc payload split = { n with
      sender := { n.sender with shared := Conn.allocated n.sender.shared }
      sending := n.sending ++ [⟨n.allocated, n.sender.shared.sendSeq.load, Conn.nextFrame n.sender.shared payload split,
        Conn.nextDatagram n.sender.shared payload split, false⟩]
      allocated := n.allocated + 1 } := rfl

theorem transmit_cases (n : Net) (i : Nat) (env : Env) :
    n.transmit i env = n ∨
    (∃ x, n.sending[i]? = some x ∧ x.sent = false ∧ n.transmit i env = { n with
      sender := Conn.transmitted env x.frame x.datagram n.sender
      sending := n.sending.set i { x with sent := true }
      sentIds := n.sentIds ++ [x.id] }) ∨
    n.transmit i env = { n with sending := n.sending.eraseIdx i } := by
  unfold transmit
  cases hx : n.sending[i]? with
  | none => exact Or.inl rfl
  | some x =>
    by_cases hs : x.sent = true
    · exact Or.inl (by simp only [hs, if_true])
    · simp only [hs, if_false, Bool.false_eq_true]
      cases he : env.sendError with
      | none =>
        simp only [Conn.transmit_ok he]
        exact Or.inr (Or.inl ⟨x, rfl, by simpa using hs, rfl⟩)
      | some msg =>
        refine Or.inr (Or.inr ?_)
        simp only [Conn.transmit_err he]

theorem track_cases (n : Net) (i : Nat) (env : Env) :
    n.track i env = n ∨
    (∃ x, n.sending[i]? = some x ∧ x.sent = true ∧ n.track i env = { n with
      sender := (Conn.track env x.seq x.datagram n.sender).2
      sending := n.sending.eraseIdx i
      holder :=
        if (n.sender.shared.sendQueue.insert env.now x.seq.get x.datagram).1 then n.holder.insert x.seq.get x.id
        else n.holder }) := by
  unfold track
  cases hx : n.sending[i]? with
  | none => exact Or.inl rfl
  | some x =>
    by_cases hs : x.sent = true
    · exact Or.inr ⟨x, rfl, hs, by simp only [hs, if_true]⟩
    · exact Or.inl (by simp only [hs, if_false, Bool.false_eq_true])

theorem resend_cases (n : Net) (env : Env) :
    n.resend env = n ∨
    (∃ id packet rest, n.resending = (id, packet) :: rest ∧ n.resend env = { n with
      sender := sentAlso env packet n.sender
      resending := rest
      sentIds := n.sentIds ++ [id] }) ∨
    n.resend env = { n with resending := [] } := by
  unfold resend
  cases hr : n.resending with
  | nil => exact Or.inl rfl
  | cons r rest =>
    obtain ⟨id, packet⟩ := r
    cases he : env.sendError with
    | none =>
      simp only [Conn.socketSend_ok he]
      exact Or.inr (Or.inl ⟨id, packet, rest, rfl, rfl⟩)
    | some msg =>
      refine Or.inr (Or.inr ?_)
      simp only [Conn.socketSend_err he]

/-- the receiver with another window -/
def withWindow (c : Conn) (w : RecvWindow 2048) : Conn := { c with shared := { c.shared with recvWindow := w } }

/-- an arrival: nothing readable, refused, or accepted -/
theorem arrive_cases (n : Net) (k : Nat) :
    n.arrive k = n ∨
    (∃ packet seq data, n.sender.sent[k]? = some packet ∧
      decodeDatagram (packet.take Conn.recvBufferSize) = .ok (seq, data) ∧
      ((n.receiver.shared.recvWindow.markReceived seq.get).1 ≠ some true ∧
        n.arrive k = { n with
          receiver := withWindow n.receiver (n.receiver.shared.recvWindow.markReceived seq.get).2 } ∨
      ∃ id, n.sentIds[k]? = some id ∧ (n.receiver.shared.recvWindow.markReceived seq.get).1 = some true ∧
        n.arrive k = { n with
          receiver := withWindow n.receiver (n.receiver.shared.recvWindow.markReceived seq.get).2
          accepted := n.accepted ++ [seq.get]
          arriving := n.arriving ++ [(id, seq)] })) := by
  unfold arrive
  cases hp : n.sender.sent[k]? with
  | none => exact Or.inl rfl
  | some packet =>
    cases hid : n.sentIds[k]? with
    | none => exact Or.inl rfl
    | some id =>
      dsimp only
      cases hd : decodeDatagram (packet.take Conn.recvBufferSize) with
      | err e => exact Or.inl rfl
      | panic => exact Or.inl rfl
      | ok r =>
        obtain ⟨seq, data⟩ := r
        right
        refine ⟨packet, seq, data, rfl, hd, ?_⟩
        simp only [Conn.markReceived, Conn.onShared]
        cases ha : (n.receiver.shared.recvWindow.markReceived seq.get).1 with
        | none => exact Or.inl ⟨by simp, rfl⟩
        | some b =>
          cases b with
          | false => exact Or.inl ⟨by simp, rfl⟩
          | true => exact Or.inr ⟨id, rfl, rfl, rfl⟩

theorem record_cases (n : Net) (i : Nat) :
    n.record i = n ∨
    (∃ id seq, n.arriving[i]? = some (id, seq) ∧ n.record i = { n with
      receiver := { n.receiver with shared := { n.receiver.shared with
        pendingAcks := n.receiver.shared.pendingAcks.insert seq } }
      arriving := n.arriving.eraseIdx i
      pendingIds := n.pendingIds ++ [id] }) := by
  unfold record
  cases hx : n.arriving[i]? with
  | none => exact Or.inl rfl
  | some x => exact Or.inr ⟨x.1, x.2, rfl, rfl⟩

theorem sendAcks_cases (n : Net) (env : Env) :
    n.sendAcks env = n ∨
    (∃ l ids rest, n.flushing = (l, ids) :: rest ∧ (n.sendAcks env = { n with flushing := rest } ∨
      n.sendAcks env = { n with
        receiver := sentAlso env (encodeAck l) n.receiver
        flushing := rest
        ackIds := n.ackIds ++ [ids] })) := by
  unfold sendAcks
  cases hf : n.flushing with
  | nil => exact Or.inl rfl
  | cons f rest =>
    obtain ⟨l, ids⟩ := f
    right
    refine ⟨l, ids, rest, rfl, ?_⟩
    cases he : env.sendError with
    | none =>
      simp only [Conn.socketSend_ok he]
      exact Or.inr rfl
    | some msg =>
      left
      simp only [Conn.socketSend_err he]

theorem ackArrive_cases (n : Net) (k : Nat) :
    n.ackArrive k = n ∨
    (∃ packet ids ranges, n.receiver.sent[k]? = some packet ∧ n.ackIds[k]? = some ids ∧
      decodeAckNack (packet.take Conn.recvBufferSize) = .ok (true, ranges) ∧ n.ackArrive k = { n with
        sender := (Conn.handleAck ranges n.sender).2
        answered := n.answered ++ ids.filter fun id => ranges.covers (id % 2 ^ 24) }) := by
  unfold ackArrive
  cases hp : n.receiver.sent[k]? with
  | none => exact Or.inl rfl
  | some packet =>
    cases hid : n.ackIds[k]? with
    | none => exact Or.inl rfl
    | some ids =>
      dsimp only
      cases hd : decodeAckNack (packet.take Conn.recvBufferSize) with
      | err e => exact Or.inl rfl
      | panic => exact Or.inl rfl
      | ok r =>
        obtain ⟨isAck, ranges⟩ := r
        cases isAck with
        | false => exact Or.inl rfl
        | true => exact Or.inr ⟨packet, ids, ranges, rfl, rfl, hd, rfl⟩

/-! ## The steps put back together -/

/-- a send whose three steps nothing interrupts is `sendFrame` -/
theorem sendFrame_steps (n : Net) (env : Env) (payload : Bytes) (split : Option SplitInfo) :
    (n.run [.alloc payload split, .transmit n.sending.length env, .track n.sending.length env]).sender =
      (Conn.sendFrame env payload split n.sender).2 := by
  simp only [run, Machine.run_cons, Machine.run_nil, step, alloc_eq]
  cases h : env.sendError with
  | none =>
    rw [Conn.sendFrame_ok h]
    simp [transmit, Conn.transmit_ok h, track, Conn.track, Conn.modifyShared]
  | some msg =>
    rw [Conn.sendFrame_err h]
    simp [transmit, Conn.transmit_err h, track, List.eraseIdx_append]

/-- a flush whose two steps nothing interrupts is `flushAcks` -/
theorem flushAcks_steps (n : Net) (env : Env) (h : n.flushing = []) :
    (n.run [.takeAcks, .sendAcks env]).receiver = (Conn.flushAcks env n.receiver).2 := by
  have htake : (Conn.onShared fun s => (s.pendingAcks, { s with pendingAcks := AckRangeList.new })) n.receiver =
      (.ok n.receiver.shared.pendingAcks,
        { n.receiver with shared := { n.receiver.shared with pendingAcks := .new } }) := rfl
  simp only [run, Machine.run_cons, Machine.run_nil, step, takeAcks, Conn.flushAcks]
  rw [Action.bind_of_ok htake]
  by_cases he : n.receiver.shared.pendingAcks.ranges.isEmpty = true
  · have hnil : n.receiver.shared.pendingAcks = .new := by
      cases hp : n.receiver.shared.pendingAcks with
      | mk rs => simpa [hp, AckRangeList.new] using he
    rw [if_pos he, if_pos he]
    simp only [sendAcks, h, Action.pure_apply, ← hnil]
  · rw [if_neg he, if_neg he]
    simp only [sendAcks, h, List.nil_append]
    cases hs : env.sendError with
    | none =>
      simp only [Conn.socketSend_ok hs]
      rw [Action.bind_of_ok (Conn.socketSend_ok hs _ _)]
    | some msg =>
      simp only [Conn.socketSend_err hs]
      rw [Action.bind_of_err (Conn.socketSend_err hs _ _)]

/-- an arrival whose two steps nothing interrupts is what `handleDatagram` does to the window and the pending list -/
theorem handleDatagram_steps (n : Net) (p : Profile) (envs : Nat → Env) {k id : Nat} {packet data : Bytes} {seq : U24}
    (h : n.arriving = []) (hp : n.sender.sent[k]? = some packet) (hid : n.sentIds[k]? = some id)
    (hd : decodeDatagram (packet.take Conn.recvBufferSize) = .ok (seq, data)) :
    Conn.ackView (n.run [.arrive k, .record 0]).receiver =
      Conn.ackView (Conn.handleDatagram p envs seq data n.receiver).2 := by
  rw [Conn.ackView_handleDatagram]
  simp only [run, Machine.run_cons, Machine.run_nil, step, arrive, hp, hid, hd, Conn.markReceived, Conn.onShared]
  cases ha : (n.receiver.shared.recvWindow.markReceived seq.get).1 with
  | none =>
    rw [Conn.arrive_refused (v := Conn.ackView n.receiver) (by simp [Conn.ackView, ha])]
    simp only [record, h, List.getElem?_nil]
    rfl
  | some b =>
    cases b with
    | false =>
      rw [Conn.arrive_refused (v := Conn.ackView n.receiver) (by simp [Conn.ackView, ha])]
      simp only [record, h, List.getElem?_nil]
      rfl
    | true =>
      rw [Conn.arrive_accepted (v := Conn.ackView n.receiver) ha]
      simp only [record, h, List.nil_append, List.getElem?_cons_zero]
      rfl

end Net

end RakNet
