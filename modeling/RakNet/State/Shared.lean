/-
Shared connection state (`src/state/shared.rs`): the counters, windows and queues that the receive, send and tick tasks
of a connection share. Every field is an atomic or sits behind its own mutex, so an update of one field is one atomic
step.
-/
import RakNet.Reliability.Ack
import RakNet.Reliability.Fragment
import RakNet.Reliability.Ordered
import RakNet.Reliability.RecvWindow
import RakNet.Reliability.SendQueue
import RakNet.State.Connection
import RakNet.State.Metrics

namespace RakNet

open Lib

theorem get_set_self {α : Type} {n k : Nat} (v : Vector α n) (x : α) (hk : k < n) {i : Fin n} (hi : k = i) :
    (v.set k x hk).get i = x := by
  subst hi
  exact Vector.getElem_set_self _

theorem get_set_ne {α : Type} {n k : Nat} (v : Vector α n) (x : α) (hk : k < n) {i : Fin n} (hi : k ≠ i) :
    (v.set k x hk).get i = v.get i := Vector.getElem_set_ne hk i.isLt hi

structure SharedState where
  state : ConnectionState
  sendSeq : AtomicU24
  splitId : UInt16
  mtu : UInt16
  metrics : ConnectionMetrics
  sendQueue : SendQueue
  recvWindow : RecvWindow 2048
  fragmentQueue : FragmentQueue
  orderedChannels : Vector OrderedChannel 16
  pendingAcks : AckRangeList
  pendingNacks : AckRangeList
  /-- timestamp of a ping (the bits of an `i64`) to the instant it was sent -/
  pendingPings : NatMap Nat
  messageIndex : AtomicU24
  orderIndices : Vector AtomicU24 16
  sequenceIndex : AtomicU24

namespace SharedState

def new (mtu : UInt16) (nowMicros : Nat) : SharedState where
  state := .connecting
  sendSeq := .new 0
  splitId := 0
  mtu := mtu
  metrics := .new nowMicros
  sendQueue := .new
  recvWindow := .new
  fragmentQueue := .new
  orderedChannels := Vector.replicate 16 .new
  pendingAcks := .new
  pendingNacks := .new
  pendingPings := ∅
  messageIndex := .new 0
  orderIndices := Vector.replicate 16 (.new 0)
  sequenceIndex := .new 0

def nextSendSeq (s : SharedState) : U24 × SharedState :=
  let (seq, sendSeq) := s.sendSeq.fetchAdd 1
  (seq, { s with sendSeq := sendSeq })

def nextMessageIndex (s : SharedState) : U24 × SharedState :=
  let (index, messageIndex) := s.messageIndex.fetchAdd 1
  (index, { s with messageIndex := messageIndex })

/-- `next_order_index`, for one of the 16 channels -/
def nextOrderIndex (channel : Fin 16) (s : SharedState) : U24 × SharedState :=
  let (index, cell) := s.orderIndices[channel].fetchAdd 1
  (index, { s with orderIndices := s.orderIndices.set channel cell })

def nextSplitId (s : SharedState) : UInt16 × SharedState := (s.splitId, { s with splitId := s.splitId + 1 })

def isConnected (s : SharedState) : Bool := s.state == .connected

def isClosed (s : SharedState) : Bool := s.state.isClosed

def markConnected (s : SharedState) : Bool × SharedState :=
  let (done, state) := s.state.transition .connecting .connected
  (done, { s with state := state })

def markDisconnecting (s : SharedState) : Bool × SharedState :=
  let (done, state) := s.state.transition .connected .disconnecting
  (done, { s with state := state })

def markDisconnected (s : SharedState) : SharedState := { s with state := .disconnected }

/-- one channel replaced -/
def setChannel (s : SharedState) (channel : Fin 16) (c : OrderedChannel) : SharedState :=
  { s with orderedChannels := s.orderedChannels.set channel c }

end SharedState

end RakNet
