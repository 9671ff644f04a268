/-
Connection metrics (`src/state/metrics.rs`): smoothed round-trip time, traffic counters, and the receive timeout.

Times of the metrics are microseconds since the Unix epoch, read by the caller (`now_micros()`). The counters are
atomics, whose `fetch_add` wraps; `update_rtt` uses plain `u64` operators.
-/
import RakNet.Error
import RakNet.Lib.Action

namespace RakNet

open Lib

structure ConnectionMetrics where
  rtt : Nat
  rttVar : Nat
  lastRecvTime : Nat
  lastSendTime : Nat
  bytesSent : Nat
  bytesRecv : Nat
  packetsSent : Nat
  packetsRecv : Nat
deriving DecidableEq, Repr

namespace ConnectionMetrics

/-- 300 ms initial round-trip time -/
def new (nowMicros : Nat) : ConnectionMetrics := ⟨300000, 0, nowMicros, nowMicros, 0, 0, 0, 0⟩

/-- the round-trip time in nanoseconds -/
def rttNanos (m : ConnectionMetrics) : Nat := m.rtt * 1000

/-- `update_rtt`: the average moves by an eighth, the variance by a quarter. The average is stored before the variance
is computed. -/
def updateRtt (p : Profile) (sampleMicros : Nat) : Action ConnectionMetrics Error Unit := do
  let old ← Action.get
  let weighted ← Action.lift (p.mul 64 old.rtt 7)
  let sum ← Action.lift (p.add 64 weighted sampleMicros)
  Action.modify fun m => { m with rtt := sum / 8 }
  let diff := if old.rtt < sampleMicros then sampleMicros - old.rtt else old.rtt - sampleMicros
  let weightedVar ← Action.lift (p.mul 64 old.rttVar 3)
  let sumVar ← Action.lift (p.add 64 weightedVar diff)
  Action.modify fun m => { m with rttVar := sumVar / 4 }

def recordSend (m : ConnectionMetrics) (nowMicros bytes : Nat) : ConnectionMetrics :=
  { m with
    bytesSent := (m.bytesSent + bytes) % 2 ^ 64
    packetsSent := (m.packetsSent + 1) % 2 ^ 64
    lastSendTime := nowMicros }

def recordRecv (m : ConnectionMetrics) (nowMicros bytes : Nat) : ConnectionMetrics :=
  { m with
    bytesRecv := (m.bytesRecv + bytes) % 2 ^ 64
    packetsRecv := (m.packetsRecv + 1) % 2 ^ 64
    lastRecvTime := nowMicros }

/-- nothing received for 5 seconds and two round trips -/
def isTimedOut (m : ConnectionMetrics) (nowMicros : Nat) : Bool :=
  decide (5000000 + m.rtt * 2 < nowMicros - m.lastRecvTime)

end ConnectionMetrics

end RakNet
