/-
A whole `RakNetStream` (`src/connection.rs`): its connection, its receive, send and tick tasks, the two channels between
the tasks and the application, and the calls on the handle (`send`, `recv`, `close`, `Drop`).

Each task is at a place of its loop and moves by one step at a time; the steps of the three tasks and the calls may come in
any order. A step of the send task sends at most one datagram. What the application gets back from a call is the answer of
the step.

- `sendTask_steps`: the steps of the send task on one message, with nothing in between, are `send_task` on that message.
-/
import RakNet.Connection.Closes

namespace RakNet

open Lib Lib.Wire

/-- where the send task is -/
inductive SendPlace where
  /-- in `app_data_rx.recv` -/
  | waiting
  /-- in the loop of `send_fragmented`, with these chunks to go -/
  | fragments (splitId : UInt16) (totalCount : UInt32) (index : Nat) (chunks : List Bytes)
  | ended
deriving DecidableEq, Repr

/-- where the tick task is -/
inductive TickPlace where
  /-- in `interval.tick` -/
  | waiting
  /-- before the `is_timed_out` check -/
  | timeout
  | flushAcks
  | flushNacks
  | retransmit
  | cleanup
  | keepalive
  | ended
deriving DecidableEq, Repr

namespace Conn

open Action

/-! ## Parts of the send task -/

/-- `send_fragmented` up to its loop: the split id, the number of chunks and the chunks -/
def beginFragmented (p : Profile) (data : Bytes) : Act (UInt16 × UInt32 × List Bytes) := do
  let splitId ← onShared SharedState.nextSplitId
  let c ← Action.get
  let chunkSize ← Action.lift (p.sub 64 c.shared.mtu.toNat 80)
  let sum ← Action.lift (p.add 64 data.length chunkSize)
  let padded ← Action.lift (p.sub 64 sum 1)
  if chunkSize = 0 then Action.lift .panic
  else return (splitId, UInt32.ofNat (padded / chunkSize), chunks data chunkSize)

theorem sendFragmented_eq (p : Profile) (envs : Nat → Env) (data : Bytes) :
    sendFragmented p envs data = beginFragmented p data >>= fun r => sendChunks r.1 r.2.1 envs 0 r.2.2 := by
  unfold sendFragmented beginFragmented
  simp only [bind_assoc]
  refine bind_congr fun splitId => bind_congr fun c => bind_congr fun chunkSize => ?_
  refine bind_congr fun sum => bind_congr fun padded => ?_
  split_ifs <;> rfl

/-- the body of `send_task` up to the first datagram of a fragmented message; where the task is then -/
def beginMessage (p : Profile) (env : Env) (data : Bytes) : Act SendPlace := do
  let c ← Action.get
  let maxSingleFrameSize ← Action.lift (p.sub 64 c.shared.mtu.toNat 60)
  if data.length ≤ maxSingleFrameSize then
    sendSingleFrame env data
    return .waiting
  else
    let (splitId, totalCount, chunks) ← beginFragmented p data
    return .fragments splitId totalCount 0 chunks

/-- one round of the loop of `send_fragmented` -/
def sendFragment (env : Env) (splitId : UInt16) (totalCount : UInt32) (index : Nat) (chunk : Bytes) : Act Unit :=
  sendFrame env chunk (some ⟨totalCount, splitId, UInt32.ofNat index⟩)

end Conn

open Conn

structure Stream where
  /-- the receive task, and the calls of `close` -/
  closers : Closers
  /-- the messages in the channel to the send task, oldest first -/
  outgoing : List Bytes
  sending : SendPlace
  ticking : TickPlace
  pingCounter : Nat
  /-- how many messages `recv` has taken out of the channel of the receive task -/
  taken : Nat
  /-- the handle is gone -/
  dropped : Bool

namespace Stream

/-- what a call on the handle gives back -/
inductive Answer where
  /-- no call, or one that has not returned yet -/
  | nothing
  /-- `send` -/
  | sent (r : Result Unit)
  /-- `recv` -/
  | received (message : Option Bytes)
  /-- `recv` is waiting -/
  | pending
deriving DecidableEq, Repr

inductive Op where
  /-- the receive task: its `is_closed` check, a packet, a socket error, a round of the frame loop -/
  | check
  | packet (env : Env) (packet : Bytes)
  | socketError
  | frame (env : Env)
  /-- a step of the send task -/
  | sendTask (env : Env)
  /-- a step of the tick task -/
  | tickTask (envs : Nat → Env)
  /-- a call of `send` -/
  | send (data : Bytes)
  /-- a poll of `recv` -/
  | recv
  /-- a new call of `close`, and a further step of one -/
  | close
  | proceed (i : Nat) (env : Env)
  /-- the handle is dropped -/
  | drop

def conn (s : Stream) : Conn := s.closers.session.conn

def phase (s : Stream) : Phase := s.closers.session.phase

/-- the stream with another connection -/
def onConn (s : Stream) (c : Conn) : Stream :=
  { s with closers := { s.closers with session := { s.closers.session with conn := c } } }

/-- the stream with another session -/
def onSession (s : Stream) (session : Session) : Stream := { s with closers := { s.closers with session := session } }

/-- the messages `recv` has not taken yet -/
def inbox (s : Stream) : List Bytes := s.conn.appData.drop s.taken

/-- `RakNetStream::new` -/
def new (mtu : UInt16) (nowMicros : Nat) (ready : Bool) : Stream where
  closers := ⟨Session.init mtu nowMicros ready, []⟩
  outgoing := []
  sending := .waiting
  ticking := .waiting
  pingCounter := 0
  taken := 0
  dropped := false

/-! ## The tasks -/

/-- the send task leaves its loop, and with it goes the channel -/
def endSending (s : Stream) : Stream := { s with sending := .ended, outgoing := [] }

/-- a step of `send_task` -/
def sendStep (p : Profile) (env : Env) (s : Stream) : Stream :=
  match s.sending with
  | .waiting =>
    match s.outgoing with
    | [] => if s.dropped then s.endSending else s
    | data :: rest =>
      if s.conn.shared.isClosed then s.endSending
      else
        match beginMessage p env data s.conn with
        | (.ok next, c) => { s.onConn c with outgoing := rest, sending := next }
        | (_, c) => (s.onConn c).endSending
  | .fragments _ _ _ [] => { s with sending := .waiting }
  | .fragments splitId totalCount index (chunk :: rest) =>
    match sendFragment env splitId totalCount index chunk s.conn with
    | (.ok (), c) => { s.onConn c with sending := .fragments splitId totalCount (index + 1) rest }
    | (_, c) => (s.onConn c).endSending
  | .ended => s

/-- the periodic work at a place of the tick task; an error is only logged -/
def work (envs : Nat → Env) (pingCounter : Nat) : TickPlace → Act Unit
  | .flushAcks => Conn.flushAcks (envs 0)
  | .flushNacks => Conn.flushNacks (envs 0)
  | .retransmit => if pingCounter % 3 = 0 then checkRetransmissions envs else pure ()
  | .cleanup => if pingCounter % 20 = 0 then cleanupExpired (envs 0) else pure ()
  | .keepalive => do
    let c ← Action.get
    if pingCounter % 50 = 0 ∧ c.shared.isConnected then sendKeepalivePing (envs 0) else return ()
  | .waiting | .timeout | .ended => pure ()

/-- a step of `tick_task` -/
def tickStep (p : Profile) (envs : Nat → Env) (s : Stream) : Stream :=
  match s.ticking with
  | .waiting =>
    if s.conn.shared.isClosed then { s with ticking := .ended }
    else
      match p.add 32 s.pingCounter 1 with
      | .ok n => { s with pingCounter := n, ticking := .timeout }
      | _ => { s with ticking := .ended }
  | .timeout =>
    if s.conn.shared.metrics.isTimedOut (envs 0).unixMicros then
      { s.onConn { s.conn with shared := s.conn.shared.markDisconnected } with ticking := .ended }
    else { s with ticking := .flushAcks }
  | .flushAcks => { s.onConn (work envs s.pingCounter .flushAcks s.conn).2 with ticking := .flushNacks }
  | .flushNacks => { s.onConn (work envs s.pingCounter .flushNacks s.conn).2 with ticking := .retransmit }
  | .retransmit => { s.onConn (work envs s.pingCounter .retransmit s.conn).2 with ticking := .cleanup }
  | .cleanup => { s.onConn (work envs s.pingCounter .cleanup s.conn).2 with ticking := .keepalive }
  | .keepalive => { s.onConn (work envs s.pingCounter .keepalive s.conn).2 with ticking := .waiting }
  | .ended => s

/-! ## The handle -/

/-- `send`: a message is taken while the connection is established and the send task runs -/
def sendCall (s : Stream) (data : Bytes) : Answer × Stream :=
  if !s.conn.shared.isConnected then (.sent (.err .connectionClosed), s)
  else if s.sending = .ended then (.sent (.err .connectionClosed), s)
  else (.sent (.ok ()), { s with outgoing := s.outgoing ++ [data] })

/-- `recv`: the next message; none once the receive task is gone and the channel empty -/
def recvCall (s : Stream) : Answer × Stream :=
  match s.inbox with
  | message :: _ => (.received (some message), { s with taken := s.taken + 1 })
  | [] => if s.phase = .ended then (.received none, s) else (.pending, s)

/-- `Drop`: the connection is marked, the channels and the pending calls go -/
def dropHandle (s : Stream) : Stream :=
  { s with
    closers := ⟨{ s.closers.session with conn := { s.conn with shared := s.conn.shared.markDisconnected } }, []⟩
    dropped := true }

def step (p : Profile) (s : Stream) : Op → Answer × Stream
  | .check => (.nothing, s.onSession (Session.step p s.closers.session .check))
  | .packet env packet => (.nothing, s.onSession (Session.step p s.closers.session (.recv env packet)))
  | .socketError => (.nothing, s.onSession (Session.step p s.closers.session .recvError))
  | .frame env => (.nothing, s.onSession (Session.step p s.closers.session (.frame env)))
  | .sendTask env => (.nothing, s.sendStep p env)
  | .tickTask envs => (.nothing, s.tickStep p envs)
  | .send data => if s.dropped then (.nothing, s) else s.sendCall data
  | .recv => if s.dropped then (.nothing, s) else s.recvCall
  | .close => if s.dropped then (.nothing, s) else (.nothing, { s with closers := Closers.step p s.closers .close })
  | .proceed i env =>
    if s.dropped then (.nothing, s) else (.nothing, { s with closers := Closers.step p s.closers (.proceed i env) })
  | .drop => (.nothing, s.dropHandle)

/-- the stream after a step -/
def next (p : Profile) (s : Stream) (op : Op) : Stream := (step p s op).2

def run (p : Profile) (s : Stream) (ops : List Op) : Stream := Machine.run (next p) s ops

/-- what the calls along a run give back -/
def answers (p : Profile) (s : Stream) (ops : List Op) : List Answer := Machine.answers (step p) s ops

@[simp] theorem onConn_conn (s : Stream) (c : Conn) : (s.onConn c).conn = c := rfl

@[simp] theorem endSending_conn (s : Stream) : s.endSending.conn = s.conn := rfl

theorem sendCall_conn (s : Stream) (data : Bytes) : (s.sendCall data).2.conn = s.conn := by
  unfold sendCall
  split_ifs <;> rfl

theorem recvCall_conn (s : Stream) : s.recvCall.2.conn = s.conn := by
  unfold recvCall
  cases s.inbox with
  | cons message rest => rfl
  | nil =>
    dsimp only
    split_ifs <;> rfl

/-! ## What a step leaves alone -/

/-- everything but the connection and the send task -/
def sendTaskView (s : Stream) : Stream := { s.onConn (Conn.new 0 0 false) with outgoing := [], sending := .waiting }

/-- everything but the connection and the tick task -/
def tickTaskView (s : Stream) : Stream := { s.onConn (Conn.new 0 0 false) with ticking := .waiting, pingCounter := 0 }

theorem sendTaskView_sendStep (p : Profile) (env : Env) (s : Stream) : (s.sendStep p env).sendTaskView = s.sendTaskView := by
  unfold sendStep
  cases s.sending with
  | waiting =>
    cases s.outgoing with
    | nil =>
      dsimp only
      split_ifs <;> rfl
    | cons data rest =>
      dsimp only
      split_ifs
      · rfl
      · cases beginMessage p env data s.conn with
        | mk r c => cases r <;> rfl
  | fragments splitId totalCount index chunks =>
    cases chunks with
    | nil => rfl
    | cons chunk rest =>
      dsimp only
      cases sendFragment env splitId totalCount index chunk s.conn with
      | mk r c => cases r <;> rfl
  | ended => rfl

theorem tickTaskView_tickStep (p : Profile) (envs : Nat → Env) (s : Stream) :
    (s.tickStep p envs).tickTaskView = s.tickTaskView := by
  unfold tickStep
  cases s.ticking with
  | waiting =>
    dsimp only
    split_ifs
    · rfl
    · cases p.add 32 s.pingCounter 1 <;> rfl
  | timeout =>
    dsimp only
    split_ifs <;> rfl
  | ended | flushAcks | flushNacks | retransmit | cleanup | keepalive => rfl

/-- only the steps of the receive task move it -/
theorem phase_next {p : Profile} {s : Stream} {op : Op} (hcheck : op ≠ .check) (hpacket : ∀ env packet, op ≠ .packet env packet)
    (herror : op ≠ .socketError) (hframe : ∀ env, op ≠ .frame env) : (next p s op).phase = s.phase := by
  cases op with
  | check => exact absurd rfl hcheck
  | packet env packet => exact absurd rfl (hpacket env packet)
  | socketError => exact absurd rfl herror
  | frame env => exact absurd rfl (hframe env)
  | sendTask env =>
    have hview := congrArg phase (sendTaskView_sendStep p env s)
    exact hview
  | tickTask envs =>
    have hview := congrArg phase (tickTaskView_tickStep p envs s)
    exact hview
  | send data =>
    unfold next step sendCall
    dsimp only
    split_ifs <;> rfl
  | recv =>
    unfold next step recvCall
    dsimp only
    split_ifs
    · rfl
    · cases s.inbox with
      | cons message rest => rfl
      | nil => rfl
    · cases s.inbox with
      | cons message rest => rfl
      | nil => rfl
  | close =>
    unfold next step
    dsimp only
    split_ifs <;> rfl
  | proceed i env =>
    unfold next step Closers.step
    dsimp only
    split_ifs
    · rfl
    · cases s.closers.calls[i]? <;> rfl
  | drop => rfl

/-! ## One message of the send task -/

/-- steps of the send task alone, each with its own environment -/
def sendOps (envs : Nat → Env) : Nat → Nat → List Op
  | _, 0 => []
  | index, k + 1 => .sendTask (envs index) :: sendOps envs (index + 1) k

/-- where a message leaves the stream: the connection, and the send task waiting for the next message or ended -/
structure Handled (r : Result Unit × Conn) (rest : List Bytes) (t : Stream) : Prop where
  conn : t.conn = r.2
  waiting : r.1 = .ok () → t.sending = .waiting ∧ t.outgoing = rest
  ended : r.1 ≠ .ok () → t.sending = .ended

theorem handled_ok {c : Conn} {rest : List Bytes} {t : Stream} (hconn : t.conn = c) (hsending : t.sending = .waiting)
    (hrest : t.outgoing = rest) : Handled (.ok (), c) rest t :=
  ⟨hconn, fun _ => ⟨hsending, hrest⟩, fun h => absurd rfl h⟩

theorem handled_failed {r : Result Unit} {c : Conn} (hr : r ≠ .ok ()) {rest : List Bytes} {t : Stream} (hconn : t.conn = c)
    (hsending : t.sending = .ended) : Handled (r, c) rest t :=
  ⟨hconn, fun h => absurd h hr, fun _ => hsending⟩

/-- a send task that has ended stays so -/
theorem run_sendOps_ended (p : Profile) (envs : Nat → Env) (index k : Nat) {s : Stream} (h : s.sending = .ended) :
    run p s (sendOps envs index k) = s := by
  induction k generalizing index with
  | zero => rfl
  | succ k ih =>
    have hstep : next p s (.sendTask (envs index)) = s := by
      simp only [next, step, sendStep, h]
    rw [sendOps, run, Machine.run_cons, hstep]
    exact ih (index + 1)

/-- the loop of `send_fragmented`, and the step out of it -/
theorem fragments_steps (p : Profile) (envs : Nat → Env) (splitId : UInt16) (totalCount : UInt32) (chunks : List Bytes)
    (index : Nat) {s : Stream} (h : s.sending = .fragments splitId totalCount index chunks) :
    Handled (sendChunks splitId totalCount envs index chunks s.conn) s.outgoing
      (run p s (sendOps envs index (chunks.length + 1))) := by
  induction chunks generalizing index s with
  | nil =>
    have hstep : next p s (.sendTask (envs index)) = { s with sending := .waiting } := by
      simp only [next, step, sendStep, h]
    show Handled (.ok (), s.conn) s.outgoing (next p s (.sendTask (envs index)))
    rw [hstep]
    exact handled_ok rfl rfl rfl
  | cons chunk chunks ih =>
    have hloop : sendChunks splitId totalCount envs index (chunk :: chunks) s.conn =
        (sendFragment (envs index) splitId totalCount index chunk >>= fun _ =>
          sendChunks splitId totalCount envs (index + 1) chunks) s.conn := rfl
    rw [List.length_cons, sendOps, run, Machine.run_cons, hloop, Action.bind_apply]
    cases hr : sendFragment (envs index) splitId totalCount index chunk s.conn with
    | mk r c =>
      cases r with
      | ok u =>
        have hstep : next p s (.sendTask (envs index)) =
            { s.onConn c with sending := .fragments splitId totalCount (index + 1) chunks } := by
          simp only [next, step, sendStep, h, hr]
        rw [hstep]
        exact ih (index + 1) (s := { s.onConn c with sending := .fragments splitId totalCount (index + 1) chunks }) rfl
      | err e | panic =>
        have hstep : next p s (.sendTask (envs index)) = (s.onConn c).endSending := by
          simp only [next, step, sendStep, h, hr]
        have hrest := run_sendOps_ended p envs (index + 1) (chunks.length + 1) (s := (s.onConn c).endSending) rfl
        rw [hstep]
        rw [run] at hrest
        rw [hrest]
        exact handled_failed (by simp) rfl rfl

/-- **A message that nothing interrupts** is sent as `send_task` sends it. -/
theorem sendTask_steps (p : Profile) (envs : Nat → Env) {s : Stream} {data : Bytes} {rest : List Bytes}
    (hsending : s.sending = .waiting) (hout : s.outgoing = data :: rest) (hopen : s.conn.shared.isClosed = false) :
    ∃ k, Handled (Conn.sendTask p [(data, envs)] s.conn) rest
      (run p s (.sendTask (envs 0) :: sendOps envs 0 k)) := by
  have htask : Conn.sendTask p [(data, envs)] s.conn = sendMessage p envs data s.conn := by
    unfold Conn.sendTask
    rw [Action.get_bind, hopen, if_neg (by simp)]
    exact congrFun (congrArg Action.run (bind_pure (sendMessage p envs data))) s.conn
  have hstep : next p s (.sendTask (envs 0)) = match beginMessage p (envs 0) data s.conn with
      | (.ok next, c) => { s.onConn c with outgoing := rest, sending := next }
      | (_, c) => (s.onConn c).endSending := by
    simp only [next, step, sendStep, hsending, hout, hopen]
    rfl
  rw [htask]
  simp only [run, Machine.run_cons, hstep]
  unfold sendMessage beginMessage
  rw [Action.get_bind, Action.get_bind]
  cases hsize : p.sub 64 s.conn.shared.mtu.toNat 60 with
  | ok size =>
    rw [Action.lift_ok_bind, Action.lift_ok_bind]
    by_cases hfits : data.length ≤ size
    · -- one frame, and the step that sends it
      refine ⟨0, ?_⟩
      rw [if_pos hfits, if_pos hfits, Action.bind_apply]
      cases hr : sendSingleFrame (envs 0) data s.conn with
      | mk r c =>
        cases r with
        | ok u => exact handled_ok rfl rfl rfl
        | err e | panic => exact handled_failed (by simp) rfl rfl
    · rw [if_neg hfits, if_neg hfits, sendFragmented_eq, Action.bind_apply, Action.bind_apply]
      cases hr : beginFragmented p data s.conn with
      | mk r c =>
        cases r with
        | ok r =>
          exact ⟨r.2.2.length + 1, fragments_steps p envs r.1 r.2.1 r.2.2 0
            (s := { s.onConn c with outgoing := rest, sending := .fragments r.1 r.2.1 0 r.2.2 }) rfl⟩
        | err e | panic => exact ⟨0, handled_failed (by simp) rfl rfl⟩
  | err e | panic => exact ⟨0, handled_failed (by simp) rfl rfl⟩

end Stream

end RakNet
