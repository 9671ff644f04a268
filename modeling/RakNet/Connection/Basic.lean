/-
A connection as one value: the shared state, what was handed to the application and to the socket, and the listener's
ready notifier. The tasks of `src/connection.rs` are actions on it; whatever they read from outside (clocks, the outcome
of a socket call) comes in an `Env`.
-/
import RakNet.Protocol.Codec
import RakNet.State.Shared

namespace RakNet

open Lib Lib.Wire

/-- what one call reads from outside -/
structure Env where
  /-- `Instant::now()`, in nanoseconds -/
  now : Nat
  /-- `SystemTime::now()` as milliseconds, the bits of an `i64` -/
  unixMillis : UInt64
  unixMicros : Nat
  /-- how `socket.send` fails, if it does -/
  sendError : Option String
  peerAddr : Except String SocketAddr

structure Conn where
  shared : SharedState
  /-- payloads sent to `app_data_tx`, oldest first -/
  appData : List Bytes
  /-- packets the socket took, oldest first -/
  sent : List Bytes
  /-- the frames of the datagrams among them -/
  framesSent : List Frame
  /-- is the `ready_notifier` still there -/
  readyNotifier : Bool
  /-- how often it was fired -/
  notified : Nat

namespace Conn

/-- clocks at zero, a socket that takes everything -/
def quietEnv : Env := ⟨0, 0, 0, none, .ok unspecifiedAddr⟩

/-- a fresh stream -/
def new (mtu : UInt16) (nowMicros : Nat) (readyNotifier : Bool) : Conn :=
  ⟨.new mtu nowMicros, [], [], [], readyNotifier, 0⟩

abbrev Act := Action Conn Error

/-- update the shared state -/
def modifyShared (g : SharedState → SharedState) : Act Unit := Action.modify fun c => { c with shared := g c.shared }

/-- run an operation of the shared state that returns a value -/
def onShared {α : Type} (g : SharedState → α × SharedState) : Act α :=
  ⟨fun c => (.ok (g c.shared).1, { c with shared := (g c.shared).2 })⟩

/-- `app_data_tx.send`; a closed channel is ignored by the callers -/
def deliver (payload : Bytes) : Act Unit := Action.modify fun c => { c with appData := c.appData ++ [payload] }

/-- `socket.send` -/
def socketSend (env : Env) (packet : Bytes) : Act Unit :=
  match env.sendError with
  | none => Action.modify fun c => { c with sent := c.sent ++ [packet] }
  | some msg => Action.throw (.io msg)

theorem socketSend_ok {env : Env} (h : env.sendError = none) (packet : Bytes) (c : Conn) :
    socketSend env packet c = (.ok (), { c with sent := c.sent ++ [packet] }) := by
  simp only [socketSend, h]
  rfl

theorem socketSend_err {env : Env} {msg : String} (h : env.sendError = some msg) (packet : Bytes) (c : Conn) :
    socketSend env packet c = (.err (.io msg), c) := by
  simp only [socketSend, h]
  rfl

/-- everything but the packets the socket took -/
def wireView (c : Conn) : Conn := { c with sent := [] }

/-- a send leaves everything else alone, whatever comes of it -/
theorem wire_socketSend (env : Env) (packet : Bytes) : Action.Preserves wireView (socketSend env packet) := by
  unfold socketSend
  cases env.sendError with
  | none => exact Action.preserves_modify fun _ => rfl
  | some msg => exact Action.preserves_throw _ _

/-- `state.metrics.record_send` -/
def recordSend (env : Env) (bytes : Nat) : Act Unit :=
  modifyShared fun s => { s with metrics := s.metrics.recordSend env.unixMicros bytes }

/-- `socket.peer_addr()` -/
def peerAddr (env : Env) : Act SocketAddr :=
  match env.peerAddr with
  | .ok addr => pure addr
  | .error msg => Action.throw (.io msg)

end Conn

end RakNet
