/-
The send path (`src/connection.rs`: `send_reliable_frame`, `send_fragmented`, `send_task`).

Sending one frame is three steps that other tasks can interleave with: allocate the indices and the sequence number
(`allocDatagram`), hand the datagram to the socket (`transmit`), put it in the send queue (`track`). `SendStage` takes the
three allocations one by one.
-/
import RakNet.Connection.Basic

namespace RakNet

namespace Conn

open Lib Lib.Wire

/-- the frame both send functions build: reliable ordered, on channel 0 -/
def buildFrame (payload : Bytes) (messageIndex orderIndex : U24) (split : Option SplitInfo) : Frame :=
  let frame := ((Frame.new .reliableOrdered payload).withMessageIndex messageIndex).withOrder orderIndex 0
  match split with
  | some info => frame.withSplit info
  | none => frame

/-- allocate message index, order index and sequence number, in this order, and encode the datagram -/
def allocDatagram (payload : Bytes) (split : Option SplitInfo) : Act (U24 × Frame × Bytes) := do
  let messageIndex ← onShared SharedState.nextMessageIndex
  let orderIndex ← onShared (SharedState.nextOrderIndex 0)
  let frame := buildFrame payload messageIndex orderIndex split
  let seq ← onShared SharedState.nextSendSeq
  return (seq, frame, encodeDatagram seq [frame.encode])

/-- `socket.send(&datagram).await?`, then `record_send` -/
def transmit (env : Env) (frame : Frame) (datagram : Bytes) : Act Unit := do
  socketSend env datagram
  Action.modify fun c => { c with framesSent := c.framesSent ++ [frame] }
  recordSend env datagram.length

/-- `queue.insert(seq.get(), datagram)`; both callers ignore the boolean -/
def track (env : Env) (seq : U24) (datagram : Bytes) : Act Unit :=
  modifyShared fun s => { s with sendQueue := (s.sendQueue.insert env.now seq.get datagram).2 }

/-- allocate, transmit, track -/
def sendFrame (env : Env) (payload : Bytes) (split : Option SplitInfo) : Act Unit := do
  let (seq, frame, datagram) ← allocDatagram payload split
  transmit env frame datagram
  track env seq datagram

def sendReliableFrame (env : Env) (payload : Bytes) : Act Unit := sendFrame env payload none

def sendSingleFrame (env : Env) (data : Bytes) : Act Unit := sendReliableFrame env data

/-- the number of rounds of `(0..len).step_by(chunk_size)` -/
def chunkCount (len chunkSize : Nat) : Nat := (len + chunkSize - 1) / chunkSize

/-- `data.slice(chunk_start..chunk_end)` for each of them -/
def chunks (data : Bytes) (chunkSize : Nat) : List Bytes :=
  (List.range (chunkCount data.length chunkSize)).map fun i => (data.drop (i * chunkSize)).take chunkSize

/-- the loop over the chunks; each round has its own environment -/
def sendChunks (splitId : UInt16) (totalCount : UInt32) : (Nat → Env) → Nat → List Bytes → Act Unit
  | _, _, [] => pure ()
  | envs, index, chunk :: rest => do
    sendFrame (envs index) chunk (some ⟨totalCount, splitId, UInt32.ofNat index⟩)
    sendChunks splitId totalCount envs (index + 1) rest

/-- `send_fragmented`. `usize` has 64 bits; `chunk_size = 0` panics in the division. -/
def sendFragmented (p : Profile) (envs : Nat → Env) (data : Bytes) : Act Unit := do
  let splitId ← onShared SharedState.nextSplitId
  let c ← Action.get
  let chunkSize ← Action.lift (p.sub 64 c.shared.mtu.toNat 80)
  let sum ← Action.lift (p.add 64 data.length chunkSize)
  let padded ← Action.lift (p.sub 64 sum 1)
  if chunkSize = 0 then Action.lift .panic
  else sendChunks splitId (UInt32.ofNat (padded / chunkSize)) envs 0 (chunks data chunkSize)

/-- one message of `send_task`: whole or in fragments -/
def sendMessage (p : Profile) (envs : Nat → Env) (data : Bytes) : Act Unit := do
  let c ← Action.get
  let maxSingleFrameSize ← Action.lift (p.sub 64 c.shared.mtu.toNat 60)
  if data.length ≤ maxSingleFrameSize then sendSingleFrame (envs 0) data
  else sendFragmented p envs data

/-- `send_task` on the messages it receives, each with the environments of its sends; an error ends the task -/
def sendTask (p : Profile) : List (Bytes × (Nat → Env)) → Act Unit
  | [] => pure ()
  | (data, envs) :: rest => do
    let c ← Action.get
    if c.shared.isClosed then return ()
    else
      sendMessage p envs data
      sendTask p rest

/-! ## A send, one access to the shared state at a time -/

/-- how far the send of a frame has come -/
inductive SendStage where
  | start
  | numbered (messageIndex : U24)
  | ordered (messageIndex orderIndex : U24)
  /-- the datagram is encoded -/
  | built (seq : U24) (frame : Frame) (datagram : Bytes)
  /-- the socket has taken it -/
  | transmitted (seq : U24) (datagram : Bytes)
deriving DecidableEq, Repr

/-- the next step of a send, and what is left of it -/
def SendStage.next (env : Env) (payload : Bytes) (split : Option SplitInfo) : SendStage → Act (Option SendStage)
  | .start => do
    let messageIndex ← onShared SharedState.nextMessageIndex
    return some (.numbered messageIndex)
  | .numbered messageIndex => do
    let orderIndex ← onShared (SharedState.nextOrderIndex 0)
    return some (.ordered messageIndex orderIndex)
  | .ordered messageIndex orderIndex => do
    let frame := buildFrame payload messageIndex orderIndex split
    let seq ← onShared SharedState.nextSendSeq
    return some (.built seq frame (encodeDatagram seq [frame.encode]))
  | .built seq frame datagram => do
    transmit env frame datagram
    return some (.transmitted seq datagram)
  | .transmitted seq datagram => do
    track env seq datagram
    return none

/-- the order index the step takes -/
def SendStage.allots (c : Conn) : SendStage → List U24
  | .numbered _ => [(c.shared.nextOrderIndex 0).1]
  | _ => []

/-- the order index of a frame that is not transmitted yet -/
def SendStage.held : SendStage → List U24
  | .ordered _ orderIndex => [orderIndex]
  | .built _ frame _ => frame.orderIndex.toList
  | _ => []

/-! ## One frame -/

/-- the shared state after the three allocations of a send -/
def allocated (s : SharedState) : SharedState :=
  { s with
    messageIndex := (s.messageIndex.fetchAdd 1).2
    orderIndices := s.orderIndices.set 0 (s.orderIndices[0].fetchAdd 1).2
    sendSeq := (s.sendSeq.fetchAdd 1).2 }

/-- the frame the next send builds -/
def nextFrame (s : SharedState) (payload : Bytes) (split : Option SplitInfo) : Frame :=
  buildFrame payload s.messageIndex.load s.orderIndices[0].load split

/-- the datagram the next send transmits -/
def nextDatagram (s : SharedState) (payload : Bytes) (split : Option SplitInfo) : Bytes :=
  encodeDatagram s.sendSeq.load [(nextFrame s payload split).encode]

theorem allocDatagram_apply (payload : Bytes) (split : Option SplitInfo) (c : Conn) :
    allocDatagram payload split c =
      (.ok (c.shared.sendSeq.load, nextFrame c.shared payload split, nextDatagram c.shared payload split),
        { c with shared := allocated c.shared }) := rfl

/-- the connection after the socket took a datagram -/
def transmitted (env : Env) (frame : Frame) (datagram : Bytes) (c : Conn) : Conn :=
  { c with
    sent := c.sent ++ [datagram]
    framesSent := c.framesSent ++ [frame]
    shared := { c.shared with metrics := c.shared.metrics.recordSend env.unixMicros datagram.length } }

theorem transmit_ok {env : Env} (h : env.sendError = none) (frame : Frame) (datagram : Bytes) (c : Conn) :
    transmit env frame datagram c = (.ok (), transmitted env frame datagram c) := by
  simp only [transmit, socketSend, h]
  rfl

theorem transmit_err {env : Env} {msg : String} (h : env.sendError = some msg) (frame : Frame) (datagram : Bytes)
    (c : Conn) : transmit env frame datagram c = (.err (.io msg), c) := by
  simp only [transmit, socketSend, h]
  rfl

/-- a send that works: three allocations, one packet out, one insertion -/
theorem sendFrame_ok {env : Env} (h : env.sendError = none) (payload : Bytes) (split : Option SplitInfo) (c : Conn) :
    sendFrame env payload split c =
      track env c.shared.sendSeq.load (nextDatagram c.shared payload split)
        (transmitted env (nextFrame c.shared payload split) (nextDatagram c.shared payload split)
          { c with shared := allocated c.shared }) := by
  unfold sendFrame
  rw [Action.bind_of_ok (allocDatagram_apply payload split c)]
  dsimp only
  rw [Action.bind_of_ok (transmit_ok h _ _ _)]

/-- a send that fails has used up its numbers -/
theorem sendFrame_err {env : Env} {msg : String} (h : env.sendError = some msg) (payload : Bytes)
    (split : Option SplitInfo) (c : Conn) :
    sendFrame env payload split c = (.err (.io msg), { c with shared := allocated c.shared }) := by
  unfold sendFrame
  rw [Action.bind_of_ok (allocDatagram_apply payload split c)]
  dsimp only
  rw [Action.bind_of_err (transmit_err h _ _ _)]

theorem calm_sendFrame (env : Env) (payload : Bytes) (split : Option SplitInfo) :
    Action.Calm (sendFrame env payload split) := by
  intro c
  cases henv : env.sendError with
  | none =>
    rw [sendFrame_ok henv]
    exact Action.calm_modify _ _
  | some msg =>
    rw [sendFrame_err henv]
    simp

theorem calm_sendChunks (splitId : UInt16) (totalCount : UInt32) (envs : Nat → Env) (index : Nat) (cs : List Bytes) :
    Action.Calm (sendChunks splitId totalCount envs index cs) := by
  induction cs generalizing index with
  | nil => exact Action.calm_pure _
  | cons chunk cs ih => exact (calm_sendFrame _ _ _).bind fun _ => ih _

/-- the connection once `send_fragmented` has its split id -/
def splitAllocated (c : Conn) : Conn := { c with shared := c.shared.nextSplitId.2 }

/-- **`send_fragmented`** fails before it sends anything, or is the loop over its chunks. -/
theorem sendFragmented_cases (p : Profile) (envs : Nat → Env) (data : Bytes) (c : Conn) :
    ((sendFragmented p envs data c).1 ≠ .ok () ∧ (sendFragmented p envs data c).2 = splitAllocated c) ∨
    ∃ chunkSize padded, p.sub 64 c.shared.mtu.toNat 80 = .ok chunkSize ∧
      (p.add 64 data.length chunkSize >>= fun sum => p.sub 64 sum 1) = .ok padded ∧
      sendFragmented p envs data c = sendChunks c.shared.splitId (UInt32.ofNat (padded / chunkSize)) envs 0
        (chunks data chunkSize) (splitAllocated c) := by
  have hsplit : onShared SharedState.nextSplitId c = (.ok c.shared.splitId, splitAllocated c) := rfl
  have hmtu : (splitAllocated c).shared.mtu = c.shared.mtu := rfl
  unfold sendFragmented
  rw [Action.bind_of_ok hsplit, Action.get_bind, hmtu]
  cases hsize : p.sub 64 c.shared.mtu.toNat 80 with
  | ok chunkSize =>
    cases hsum : p.add 64 data.length chunkSize with
    | ok sum =>
      cases hpad : p.sub 64 sum 1 with
      | ok padded =>
        by_cases h0 : chunkSize = 0
        · exact Or.inl (by simp [Action.bind_apply, hpad, hsum, if_pos h0])
        · refine Or.inr ⟨chunkSize, padded, rfl, by rw [hsum]; exact hpad, ?_⟩
          simp [Action.bind_apply, h0, hpad, hsum]
      | err e => exact Or.inl (by simp [Action.bind_apply, hpad, hsum])
      | panic => exact Or.inl (by simp [Action.bind_apply, hpad, hsum])
    | err e => exact Or.inl (by simp [Action.bind_apply, hsum])
    | panic => exact Or.inl (by simp [Action.bind_apply, hsum])
  | err e => exact Or.inl (by simp [Action.bind_apply])
  | panic => exact Or.inl (by simp [Action.bind_apply])

/-! ## Many sends -/

/-- `m` sends of the same payload on a socket that takes everything -/
def sendMany (payload : Bytes) : Nat → Conn → Conn
  | 0, c => c
  | m + 1, c => (sendReliableFrame quietEnv payload (sendMany payload m c)).2

/-- after `m` sends: `m` datagrams are out, and the queue has the first 2048 of them -/
structure SentMany (m : Nat) (c : Conn) : Prop where
  counter : c.shared.sendSeq.raw = m
  sentLength : c.sent.length = m
  sent : ∀ k < m, ∃ frames, c.sent[k]? = some (encodeDatagram (U24.new k) frames)
  maxSize : c.shared.sendQueue.maxSize = 2048
  len : c.shared.sendQueue.len = min m 2048
  keys : ∀ s, c.shared.sendQueue.contains s = true ↔ s < min m 2048

theorem sentMany_new (mtu : UInt16) (nowMicros : Nat) (ready : Bool) : SentMany 0 (new mtu nowMicros ready) := by
  refine ⟨rfl, rfl, fun k hk => absurd hk (Nat.not_lt_zero k), rfl, rfl, ?_⟩
  intro s
  rw [SendQueue.contains_iff]
  simp [new, SharedState.new, SendQueue.packet?_new]

theorem SentMany.next {m : Nat} {c : Conn} (h : SentMany m c) (hm : m < 2 ^ 24) (payload : Bytes) :
    SentMany (m + 1) (sendReliableFrame quietEnv payload c).2 := by
  have hseq : c.shared.sendSeq.load = U24.new m := by rw [AtomicU24.load, h.counter]
  have hget : c.shared.sendSeq.load.get = m := by rw [hseq, U24.get_new_of_lt hm]
  rw [sendReliableFrame, sendFrame_ok rfl]
  have hsent : (track quietEnv c.shared.sendSeq.load (nextDatagram c.shared payload none)
      (transmitted quietEnv (nextFrame c.shared payload none) (nextDatagram c.shared payload none)
        { c with shared := allocated c.shared })).2.sent = c.sent ++ [nextDatagram c.shared payload none] := rfl
  have hqueue : (track quietEnv c.shared.sendSeq.load (nextDatagram c.shared payload none)
      (transmitted quietEnv (nextFrame c.shared payload none) (nextDatagram c.shared payload none)
        { c with shared := allocated c.shared })).2.shared.sendQueue =
      (c.shared.sendQueue.insert quietEnv.now m (nextDatagram c.shared payload none)).2 := by
    rw [← hget]
    rfl
  have hlen : c.shared.sendQueue.len = min m c.shared.sendQueue.maxSize := by rw [h.len, h.maxSize]
  have hkeys : ∀ s, c.shared.sendQueue.contains s = true ↔ s < min m c.shared.sendQueue.maxSize := by
    rw [h.maxSize]
    exact h.keys
  obtain ⟨hlen', hkeys'⟩ := SendQueue.insert_next hlen hkeys quietEnv.now (nextDatagram c.shared payload none)
  rw [← hqueue, h.maxSize] at hlen' hkeys'
  refine ⟨?_, ?_, ?_, ?_, hlen', hkeys'⟩
  · show wrappingAdd c.shared.sendSeq.raw 1 = m + 1
    rw [h.counter, wrappingAdd]
    omega
  · rw [hsent, List.length_append, h.sentLength]
    rfl
  · intro k hk
    rw [hsent]
    rcases Nat.lt_succ_iff_lt_or_eq.1 hk with hk | rfl
    · obtain ⟨frames, hf⟩ := h.sent k hk
      exact ⟨frames, by rw [List.getElem?_append_left (by rw [h.sentLength]; exact hk), hf]⟩
    · refine ⟨[(nextFrame c.shared payload none).encode], ?_⟩
      rw [List.getElem?_append_right (by rw [h.sentLength]), h.sentLength, Nat.sub_self, nextDatagram, hseq]
      rfl
  · rw [hqueue, SendQueue.maxSize_insert]
    exact h.maxSize

theorem sentMany (mtu : UInt16) (nowMicros : Nat) (ready : Bool) (payload : Bytes) {m : Nat} (hm : m ≤ 2 ^ 24) :
    SentMany m (sendMany payload m (new mtu nowMicros ready)) := by
  induction m with
  | zero => exact sentMany_new mtu nowMicros ready
  | succ m ih => exact (ih (Nat.le_of_succ_le hm)).next hm payload

end Conn

end RakNet
