/-
The periodic work of a connection (`src/connection.rs`: `flush_acks`, `flush_nacks`, `check_retransmissions`,
`send_keepalive_ping`, and the fragment clean-up of `tick_task`).
-/
import RakNet.Connection.Basic

namespace RakNet

namespace Conn

open Lib Lib.Wire

/-- `flush_acks`: the list is taken before the send -/
def flushAcks (env : Env) : Act Unit := do
  let ackList ← onShared fun s => (s.pendingAcks, { s with pendingAcks := .new })
  if ackList.ranges.isEmpty then return ()
  else
    socketSend env (encodeAck ackList)
    recordSend env (encodeAck ackList).length

def flushNacks (env : Env) : Act Unit := do
  let nackList ← onShared fun s => (s.pendingNacks, { s with pendingNacks := .new })
  if nackList.ranges.isEmpty then return ()
  else
    socketSend env (encodeNack nackList)
    recordSend env (encodeNack nackList).length

/-- send packets one after another until one fails -/
def sendAll : (Nat → Env) → List Bytes → Act Unit
  | _, [] => pure ()
  | envs, packet :: rest => do
    socketSend (envs 0) packet
    recordSend (envs 0) packet.length
    sendAll (fun i => envs (i + 1)) rest

theorem sendAll_cons_ok {envs : Nat → Env} (h : (envs 0).sendError = none) (packet : Bytes) (rest : List Bytes) (c : Conn) :
    sendAll envs (packet :: rest) c = sendAll (fun i => envs (i + 1)) rest
      (recordSend (envs 0) packet.length { c with sent := c.sent ++ [packet] }).2 := by
  rw [sendAll, Action.bind_of_ok (socketSend_ok h packet c)]
  rfl

theorem sendAll_cons_err {envs : Nat → Env} {msg : String} (h : (envs 0).sendError = some msg) (packet : Bytes)
    (rest : List Bytes) (c : Conn) : sendAll envs (packet :: rest) c = (.err (.io msg), c) := by
  rw [sendAll, Action.bind_of_err (socketSend_err h packet c)]

/-- everything but the packets the socket took and the metrics -/
def tickView (c : Conn) : Conn := { c with sent := [], shared := { c.shared with metrics := .new 0 } }

theorem tick_sendAll (envs : Nat → Env) (packets : List Bytes) : Action.Preserves tickView (sendAll envs packets) := by
  induction packets generalizing envs with
  | nil => exact Action.preserves_pure _ _
  | cons b packets ih =>
    have hsend : Action.Preserves tickView (socketSend (envs 0) b) := (wire_socketSend (envs 0) b).comp tickView
    exact hsend.bind fun _ => Action.Preserves.bind (fun _ => rfl) fun _ => ih _

/-- `check_retransmissions`: the timeout passed down is three round trips, and `get_expired` multiplies it by three -/
def checkRetransmissions (envs : Nat → Env) : Act Unit := do
  let packets ← onShared fun s =>
    let (expired, q) := s.sendQueue.getExpired (envs 0).now (s.metrics.rttNanos * 3) 3
    (expired.map Prod.snd, { s with sendQueue := q })
  sendAll envs packets

/-- the fragment clean-up of every twentieth tick -/
def cleanupExpired (env : Env) : Act Unit :=
  modifyShared fun s => { s with fragmentQueue := (s.fragmentQueue.cleanupExpired env.now).2 }

def sendKeepalivePing (env : Env) : Act Unit := do
  modifyShared fun s => { s with pendingPings := s.pendingPings.insert env.unixMillis.toNat env.now }
  socketSend env (encodeConnectedPing env.unixMillis)
  recordSend env (encodeConnectedPing env.unixMillis).length

end Conn

end RakNet
