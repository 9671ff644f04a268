/-
The receive task step by step, with whatever else happens to its connection in between.

`receive_task` checks the state, waits for a packet and handles it; between any two frames of a datagram the application
can close the stream and the tick task can find it timed out. A session is a connection together with the place its receive
task has reached. `check`, `recv` and `frame` are the steps of the receive task; the other operations are those of the
other tasks.

- `handlePacket_eq`, `frameLoop_succ`: the steps of a session are the parts of `handle_packet`.
- `step_frame`, `step_no_frame`: a step is one frame, or it hands nothing out and can only end the connection.
-/
import RakNet.Connection.Held

namespace RakNet

open Lib Lib.Wire

namespace Conn

open Action

/-! ## Parts of `handle_packet` -/

/-- `handle_datagram` up to its frame loop; the frames to go through, if the number is new -/
def beginDatagram (seq : U24) (framesData : Bytes) : Act (Option Bytes) := do
  let answer ← markReceived seq
  if answer = some true then
    recordAck seq
    return some framesData
  else return none

/-- `handle_packet` up to the frame loop of a datagram -/
def beginPacket (p : Profile) (env : Env) (packet : Bytes) : Act (Option Bytes) :=
  match packet with
  | [] => pure none
  | packetId :: _ => do
    if packetId = idConnectedPing then
      handleConnectedPing env packet
      return none
    else if packetId = idConnectedPong then
      handleConnectedPong p env packet
      return none
    else if packetId = idDisconnectNotification then
      Action.lift (decodeDisconnectNotification packet)
      modifyShared SharedState.markDisconnected
      return none
    else if isDatagram packetId then
      let (seq, framesData) ← Action.lift (decodeDatagram packet)
      beginDatagram seq framesData
    else if isAck packetId then
      let (_isAck, ranges) ← Action.lift (decodeAckNack packet)
      handleAck ranges
      return none
    else if isNack packetId then
      let (_isAck, ranges) ← Action.lift (decodeAckNack packet)
      handleNack ranges
      return none
    else return none

/-- one round of the frame loop; the bytes left, unless there were none -/
def frameStep (p : Profile) (env : Env) (rest : Bytes) : Act (Option Bytes) :=
  match rest with
  | [] => pure none
  | x :: b => do
    let (frame, rest) ← Action.lift (Frame.decode p (x :: b))
    handleFrame p env frame
    return some rest

/-- the first part of `close`: a connected stream starts to disconnect and says so to its peer -/
def beginClose (env : Env) : Act Unit := do
  let disconnecting ← onShared SharedState.markDisconnecting
  if disconnecting then socketSend env encodeDisconnectNotification else return ()

/-- a part that leaves no frames -/
theorem bind_none (x : Act Unit) (k : Option Bytes → Act Unit) (c : Conn) (hk : k none = pure ()) :
    ((do x; return none) >>= k) c = x c := by
  simp only [bind_apply]
  cases x c with
  | mk r c' =>
    cases r with
    | ok u => simp [hk]
    | err e => rfl
    | panic => rfl

theorem bind_decoded_none {α : Type} (d : Result α) (x : α → Act Unit) (k : Option Bytes → Act Unit) (c : Conn)
    (hk : k none = pure ()) : ((do let a ← Action.lift d; x a; return none) >>= k) c = (Action.lift d >>= x) c := by
  simp only [bind_apply, lift_apply]
  cases d with
  | ok a => exact bind_none (x a) k c hk
  | err e => rfl
  | panic => rfl

theorem handleDatagram_eq (p : Profile) (envs : Nat → Env) (seq : U24) (framesData : Bytes) (c : Conn) :
    handleDatagram p envs seq framesData c =
      (beginDatagram seq framesData >>= fun rest =>
        match rest with
        | none => pure ()
        | some framesData => frameLoop p framesData.length envs framesData) c := by
  unfold handleDatagram beginDatagram
  simp only [bind_apply, markReceived, onShared]
  split_ifs with h
  · rfl
  · rfl

theorem handlePacket_eq (p : Profile) (envs : Nat → Env) (packet : Bytes) (c : Conn) :
    handlePacket p envs packet c =
      (beginPacket p (envs 0) packet >>= fun rest =>
        match rest with
        | none => pure ()
        | some framesData => frameLoop p framesData.length envs framesData) c := by
  unfold handlePacket beginPacket
  cases packet with
  | nil => rfl
  | cons packetId rest =>
    dsimp only
    split_ifs with h1 h2 h3 h4 h5 h6
    · exact (bind_none _ _ c rfl).symm
    · exact (bind_none _ _ c rfl).symm
    · exact (bind_decoded_none _ _ _ c rfl).symm
    · simp only [bind_apply, lift_apply]
      cases decodeDatagram (packetId :: rest) with
      | ok r => exact handleDatagram_eq p envs r.1 r.2 c
      | err e => rfl
      | panic => rfl
    · exact (bind_decoded_none _ _ _ c rfl).symm
    · exact (bind_decoded_none _ _ _ c rfl).symm
    · rfl

theorem frameLoop_succ (p : Profile) (fuel : Nat) (envs : Nat → Env) (rest : Bytes) (c : Conn) :
    frameLoop p (fuel + 1) envs rest c =
      (frameStep p (envs 0) rest >>= fun rest' =>
        match rest' with
        | none => pure ()
        | some rest' => frameLoop p fuel (fun i => envs (i + 1)) rest') c := by
  cases rest with
  | nil => rfl
  | cons x b =>
    simp only [frameLoop, frameStep, bind_apply, lift_apply]
    cases Frame.decode p (x :: b) with
    | ok r =>
      dsimp only
      cases handleFrame p (envs 0) r.1 c with
      | mk res c' => cases res <;> rfl
    | err e => rfl
    | panic => rfl

/-! ## What the parts do to the state and to the application's data -/

theorem preserves_beginDatagram {τ : Type} {f : Conn → τ} (hmarkReceived : ∀ seq, Preserves f (markReceived seq))
    (hrecordAck : ∀ seq, Preserves f (recordAck seq)) (seq : U24) (framesData : Bytes) :
    Preserves f (beginDatagram seq framesData) :=
  (hmarkReceived seq).bind fun _ => Preserves.ite ((hrecordAck seq).bind fun _ => preserves_pure _ _) (preserves_pure _ _)

/-- what the handlers of a packet leave alone, the packet leaves alone, up to its frames -/
theorem preserves_beginPacket {τ : Type} {f : Conn → τ} {p : Profile} {env : Env} {packet : Bytes}
    (hping : Preserves f (handleConnectedPing env packet)) (hpong : Preserves f (handleConnectedPong p env packet))
    (hdisconnect : packet.head? = some idDisconnectNotification → Preserves f (modifyShared SharedState.markDisconnected))
    (hdatagram : ∀ seq framesData, Preserves f (beginDatagram seq framesData))
    (hack : ∀ ranges, Preserves f (handleAck ranges)) : Preserves f (beginPacket p env packet) := by
  unfold beginPacket
  cases packet with
  | nil => exact preserves_pure _ _
  | cons packetId rest =>
    dsimp only
    split_ifs with h1 h2 h3
    · exact hping.bind fun _ => preserves_pure _ _
    · exact hpong.bind fun _ => preserves_pure _ _
    · exact (preserves_lift _ _).bind fun _ => (hdisconnect (congrArg some h3)).bind fun _ => preserves_pure _ _
    · exact (preserves_lift _ _).bind fun r => hdatagram r.1 r.2
    · exact (preserves_lift _ _).bind fun r => (hack r.2).bind fun _ => preserves_pure _ _
    · exact (preserves_lift _ _).bind fun _ => (preserves_pure _ _).bind fun _ => preserves_pure _ _
    · exact preserves_pure _ _

theorem preserves_state_beginPacket (p : Profile) (env : Env) {packet : Bytes}
    (h : packet.head? ≠ some idDisconnectNotification) : Preserves (·.shared.state) (beginPacket p env packet) :=
  preserves_beginPacket (preserves_state (preserves_handleConnectedPing env _))
    (preserves_state (preserves_handleConnectedPong p env _)) (fun hhead => absurd hhead h)
    (preserves_beginDatagram (fun _ _ => rfl) fun _ _ => rfl) fun _ _ => rfl

/-- a packet ends the connection if it is a disconnect notification, and leaves its state alone if not, up to its frames -/
theorem state_beginPacket (p : Profile) (env : Env) (packet : Bytes) (c : Conn) :
    (beginPacket p env packet c).2.shared.state =
      if packet.head? = some idDisconnectNotification then .disconnected else c.shared.state := by
  by_cases h : packet.head? = some idDisconnectNotification
  · rw [if_pos h]
    obtain ⟨rest, rfl⟩ := List.head?_eq_some_iff.1 h
    rfl
  · rw [if_neg h]
    exact preserves_state_beginPacket p env h c

/-- what a connection has handed out: payloads to the application, the ready notification to the listener -/
def outView (c : Conn) : List Bytes × Bool × Nat := (c.appData, notifierView c)

/-- with the channels, which only frames change -/
def frameView (c : Conn) : (List Bytes × Bool × Nat) × Vector OrderedChannel 16 := (outView c, c.shared.orderedChannels)

theorem preserves_frameView {α : Type} {x : Act α} (h : Preserves sendView x) : Preserves frameView x := h.comp frameView

/-- a packet hands nothing out before its frames, and leaves the channels alone -/
theorem frameView_beginPacket (p : Profile) (env : Env) (packet : Bytes) :
    Preserves frameView (beginPacket p env packet) :=
  preserves_beginPacket (preserves_frameView (preserves_handleConnectedPing env _))
    (preserves_frameView (preserves_handleConnectedPong p env _)) (fun _ _ => rfl)
    (preserves_beginDatagram (fun _ _ => rfl) fun _ _ => rfl) fun _ _ => rfl

/-! ## The other tasks -/

/-- does the operation mark the connection as disconnected -/
def Op.marks : Op → Bool
  | .markDisconnected => true
  | _ => false

/-- the sends and the ticks leave alone what the receive side has, except for what they are there to change -/
theorem state_frameView_other (p : Profile) (op : Conn.Op) (hop : ∀ envs packet, op ≠ .receive envs packet) :
    (∀ c, (op.act p c).2.shared.state = if op.marks then .disconnected else c.shared.state) ∧
      Preserves frameView (op.act p) := by
  have hsend : ∀ {x : Act Unit}, Preserves sendView x → (∀ c, (x c).2.shared.state = c.shared.state) ∧ Preserves frameView x :=
    fun h => ⟨preserves_state h, preserves_frameView h⟩
  cases op with
  | receive envs packet => exact absurd rfl (hop envs packet)
  | send envs data => exact hsend (preserves_sendTask p _)
  | flushAcks env =>
    have htail := fun l : AckRangeList => preserves_flushTail env l (encodeAck l)
    exact ⟨Preserves.bind (fun _ => rfl) fun l => preserves_state (htail l),
      Preserves.bind (fun _ => rfl) fun l => preserves_frameView (htail l)⟩
  | flushNacks env =>
    have htail := fun l : AckRangeList => preserves_flushTail env l (encodeNack l)
    exact ⟨Preserves.bind (fun _ => rfl) fun l => preserves_state (htail l),
      Preserves.bind (fun _ => rfl) fun l => preserves_frameView (htail l)⟩
  | checkRetransmissions envs => exact hsend (Preserves.bind (fun _ => rfl) fun _ => preserves_sendAll _ _)
  | cleanupExpired env => exact ⟨fun _ => rfl, fun _ => rfl⟩
  | sendKeepalivePing env =>
    exact hsend (Preserves.bind (fun _ => rfl) fun _ => (preserves_socketSend _ _).bind fun _ => fun _ => rfl)
  | markDisconnected => exact ⟨fun _ => rfl, fun _ => rfl⟩

theorem state_frameView_beginClose (env : Env) (c : Conn) :
    (beginClose env c).2.shared.state = (c.shared.state.transition .connected .disconnecting).2 ∧
      frameView (beginClose env c).2 = frameView c := by
  have htail : ∀ b : Bool, Preserves sendView (do
      if b then socketSend env encodeDisconnectNotification else return () : Act Unit) := fun b =>
    Preserves.ite (preserves_socketSend _ _) (preserves_pure _ _)
  exact ⟨component_bind (x := onShared SharedState.markDisconnecting) (fun b => preserves_state (htail b)) c,
    component_bind (x := onShared SharedState.markDisconnecting) (fun b => preserves_frameView (htail b)) c⟩

end Conn

/-! ## Sessions -/

/-- where the receive task is -/
inductive Phase where
  /-- before the `is_closed` check -/
  | top
  /-- in `socket.recv` -/
  | waiting
  /-- in the frame loop of a packet of `len` bytes, with these bytes of its frames left -/
  | frames (len : Nat) (rest : Bytes)
  | ended
deriving DecidableEq, Repr

structure Session where
  conn : Conn
  phase : Phase

namespace Session

open Conn Action

inductive Op where
  | check
  | recv (env : Env) (packet : Bytes)
  | recvError
  | frame (env : Env)
  | beginClose (env : Env)
  /-- an operation of another task, or `mark_disconnected` from wherever it is called -/
  | other (op : Conn.Op)

/-- `state.metrics.record_recv(len)` -/
def noteRecv (env : Env) (len : Nat) (c : Conn) : Conn :=
  { c with shared := { c.shared with metrics := c.shared.metrics.recordRecv env.unixMicros len } }

/-- where a part of `handle_packet` leaves the receive task: among the frames, at the end of the packet (an error is only
logged), or ended by a panic -/
def settle (env : Env) (len : Nat) : Result (Option Bytes) × Conn → Session
  | (.ok (some rest), c) => ⟨c, .frames len rest⟩
  | (.ok none, c) => ⟨noteRecv env len c, .top⟩
  | (.err _, c) => ⟨noteRecv env len c, .top⟩
  | (.panic, c) => ⟨c, .ended⟩

/-- the receive task leaves its loop -/
def finish (c : Conn) : Session := ⟨{ c with shared := c.shared.markDisconnected }, .ended⟩

def step (p : Profile) (s : Session) : Op → Session
  | .check =>
    match s.phase with
    | .top => if s.conn.shared.isClosed then finish s.conn else { s with phase := .waiting }
    | _ => s
  | .recv env packet =>
    match s.phase with
    | .waiting =>
      let data := packet.take recvBufferSize
      settle env data.length (beginPacket p env data s.conn)
    | _ => s
  | .recvError =>
    match s.phase with
    | .waiting => finish s.conn
    | _ => s
  | .frame env =>
    match s.phase with
    | .frames len rest => settle env len (frameStep p env rest s.conn)
    | _ => s
  | .beginClose env => { s with conn := (Conn.beginClose env s.conn).2 }
  | .other (.receive _ _) => s
  | .other op => { s with conn := Conn.step p s.conn op }

def run (p : Profile) (s : Session) (ops : List Op) : Session := Machine.run (step p) s ops

/-- a fresh stream of the listener -/
def init (mtu : UInt16) (nowMicros : Nat) (ready : Bool) : Session := ⟨.new mtu nowMicros ready, .top⟩

/-- the frame the step hands to `handle_frame` -/
def frameOf (p : Profile) (s : Session) : Op → Option Frame
  | .frame _ =>
    match s.phase with
    | .frames _ (x :: b) =>
      match Frame.decode p (x :: b) with
      | .ok (frame, _) => some frame
      | _ => none
    | _ => none
  | _ => none

theorem state_settle (env : Env) (len : Nat) (r : Result (Option Bytes) × Conn) :
    (settle env len r).conn.shared.state = r.2.shared.state := by
  obtain ⟨res, c⟩ := r
  cases res with
  | ok rest => cases rest <;> rfl
  | err e => rfl
  | panic => rfl

theorem heldView_settle (env : Env) (len : Nat) (r : Result (Option Bytes) × Conn) :
    heldView (settle env len r).conn = heldView r.2 := by
  obtain ⟨res, c⟩ := r
  cases res with
  | ok rest => cases rest <;> rfl
  | err e => rfl
  | panic => rfl

theorem frameView_settle (env : Env) (len : Nat) (r : Result (Option Bytes) × Conn) :
    frameView (settle env len r).conn = frameView r.2 := by
  obtain ⟨res, c⟩ := r
  cases res with
  | ok rest => cases rest <;> rfl
  | err e => rfl
  | panic => rfl

/-- the frame of a step, where it is and what is done with it -/
theorem frameOf_eq_some {p : Profile} {s : Session} {op : Op} {f : Frame} (h : frameOf p s op = some f) :
    ∃ env len x b rest, op = .frame env ∧ s.phase = .frames len (x :: b) ∧ Frame.decode p (x :: b) = .ok (f, rest) := by
  unfold frameOf at h
  cases op with
  | frame env =>
    dsimp only at h
    cases hph : s.phase with
    | frames len bytes =>
      cases bytes with
      | nil => simp [hph] at h
      | cons x b =>
        rw [hph] at h
        dsimp only at h
        cases hd : Frame.decode p (x :: b) with
        | ok r =>
          rw [hd] at h
          cases h
          exact ⟨env, len, x, b, r.2, rfl, rfl, hd⟩
        | err e => simp [hd] at h
        | panic => simp [hd] at h
    | _ => simp [hph] at h
  | _ => simp at h

theorem step_frame_eq {p : Profile} {s : Session} {env : Env} {len : Nat} {bytes : Bytes} (hph : s.phase = .frames len bytes) :
    step p s (.frame env) = settle env len (frameStep p env bytes s.conn) := by
  unfold step
  rw [hph]

/-- a round of the frame loop does to the connection what `handle_frame` does -/
theorem frameStep_conn {p : Profile} {env : Env} {x : UInt8} {b rest : Bytes} {f : Frame} {c : Conn}
    (hd : Frame.decode p (x :: b) = .ok (f, rest)) : (frameStep p env (x :: b) c).2 = (handleFrame p env f c).2 := by
  simp only [frameStep, bind_apply, lift_apply, hd]
  cases handleFrame p env f c with
  | mk res c' => cases res <;> rfl

/-- a step with a frame is `handle_frame` on it, for the state and for what is held -/
theorem step_frame {p : Profile} {s : Session} {op : Op} {f : Frame} (h : frameOf p s op = some f) :
    ∃ env, op = .frame env ∧ (step p s op).conn.shared.state = stateAfter s.conn.shared.state f ∧
      heldView (step p s op).conn = (heldView s.conn).after p env.now s.conn.shared.state f := by
  obtain ⟨env, len, x, b, rest, rfl, hph, hd⟩ := frameOf_eq_some h
  refine ⟨env, rfl, ?_, ?_⟩
  · rw [step_frame_eq hph, state_settle, frameStep_conn hd, state_handleFrame]
  · rw [step_frame_eq hph, heldView_settle, frameStep_conn hd, heldView_handleFrame]

/-! ## The state after a step -/

/-- the state a step leaves -/
def nextState (p : Profile) (s : Session) (op : Op) : ConnectionState :=
  match op with
  | .check => s.conn.shared.state
  | .recv _ packet =>
    if s.phase = .waiting ∧ (packet.take recvBufferSize).head? = some idDisconnectNotification then .disconnected
    else s.conn.shared.state
  | .recvError => if s.phase = .waiting then .disconnected else s.conn.shared.state
  | .frame _ =>
    match frameOf p s op with
    | some f => stateAfter s.conn.shared.state f
    | none => s.conn.shared.state
  | .beginClose _ => (s.conn.shared.state.transition .connected .disconnecting).2
  | .other op => if op.marks then .disconnected else s.conn.shared.state

/-- a round of the frame loop without a frame: the end of the packet, or a decode that fails -/
theorem conn_step_no_frame {p : Profile} {s : Session} {env : Env} (h : frameOf p s (.frame env) = none) :
    (step p s (.frame env)).conn.shared.state = s.conn.shared.state ∧
      frameView (step p s (.frame env)).conn = frameView s.conn := by
  cases hph : s.phase with
  | frames len bytes =>
    rw [step_frame_eq hph, state_settle, frameView_settle]
    cases bytes with
    | nil => exact ⟨rfl, rfl⟩
    | cons x b =>
      simp only [frameOf, hph] at h
      simp only [frameStep, bind_apply, lift_apply]
      cases hd : Frame.decode p (x :: b) with
      | ok r => simp [hd] at h
      | err e => exact ⟨rfl, rfl⟩
      | panic => exact ⟨rfl, rfl⟩
  | _ => simp [step, hph]

/-- **The state after a step.** -/
theorem state_step (p : Profile) (s : Session) (op : Op) :
    (step p s op).conn.shared.state = nextState p s op := by
  cases op with
  | check =>
    unfold step nextState
    cases s.phase with
    | top =>
      dsimp only
      split_ifs with hclosed
      · -- a connection that is found closed is disconnected already
        show ConnectionState.disconnected = s.conn.shared.state
        simp only [SharedState.isClosed, ConnectionState.isClosed, beq_iff_eq] at hclosed
        exact hclosed.symm
      · rfl
    | _ => rfl
  | recv env packet =>
    unfold step nextState
    cases s.phase with
    | waiting =>
      dsimp only
      rw [state_settle, state_beginPacket]
      simp
    | _ => simp
  | recvError =>
    unfold step nextState
    cases s.phase with
    | waiting => rfl
    | _ => simp
  | frame env =>
    cases hf : frameOf p s (.frame env) with
    | some f =>
      obtain ⟨-, -, hstate, -⟩ := step_frame hf
      simp only [nextState, hf]
      exact hstate
    | none =>
      simp only [nextState, hf]
      exact (conn_step_no_frame hf).1
  | beginClose env => exact (state_frameView_beginClose env s.conn).1
  | other op =>
    cases op with
    | receive envs packet => rfl
    | _ => exact (state_frameView_other p _ (by simp)).1 s.conn

/-- a step without a frame hands nothing out and leaves the channels alone -/
theorem frameView_step_no_frame {p : Profile} {s : Session} {op : Op} (h : frameOf p s op = none) :
    frameView (step p s op).conn = frameView s.conn := by
  cases op with
  | check =>
    unfold step
    cases s.phase with
    | top =>
      dsimp only
      split_ifs <;> rfl
    | _ => rfl
  | recv env packet =>
    unfold step
    cases s.phase with
    | waiting =>
      dsimp only
      rw [frameView_settle]
      exact frameView_beginPacket p env _ s.conn
    | _ => rfl
  | recvError =>
    unfold step
    cases s.phase <;> rfl
  | frame env => exact (conn_step_no_frame h).2
  | beginClose env => exact (state_frameView_beginClose env s.conn).2
  | other op =>
    cases op with
    | receive envs packet => rfl
    | _ => exact (state_frameView_other p _ (by simp)).2 s.conn

/-- **A step without a frame** hands nothing out, and leaves the state alone or makes it one that cannot receive. -/
theorem step_no_frame {p : Profile} {s : Session} {op : Op} (h : frameOf p s op = none) :
    ((step p s op).conn.shared.state = s.conn.shared.state ∨ (step p s op).conn.shared.state.canReceive = false) ∧
      outView (step p s op).conn = outView s.conn := by
  refine ⟨?_, congrArg Prod.fst (frameView_step_no_frame h)⟩
  rw [state_step]
  unfold nextState
  cases op with
  | check => exact Or.inl rfl
  | frame env =>
    rw [h]
    exact Or.inl rfl
  | beginClose env =>
    cases s.conn.shared.state with
    | connected => exact Or.inr rfl
    | _ => exact Or.inl rfl
  | recv env packet | recvError | other op =>
    dsimp only
    split_ifs
    · exact Or.inr rfl
    · exact Or.inl rfl

/-- the end of a connection is final -/
theorem disconnected_step {p : Profile} {s : Session} (h : s.conn.shared.state = .disconnected) (op : Op) :
    (step p s op).conn.shared.state = .disconnected := by
  rw [state_step]
  unfold nextState
  cases op with
  | check => exact h
  | frame env =>
    dsimp only
    cases frameOf p s (.frame env) with
    | none => exact h
    | some f =>
      dsimp only
      rw [h]
      unfold stateAfter
      cases kindIn .disconnected f with
      | incoming =>
        dsimp only
        split_ifs <;> rfl
      | _ => rfl
  | beginClose env =>
    rw [h]
    rfl
  | recv env packet | recvError | other op =>
    dsimp only
    rw [h]
    split_ifs <;> rfl

end Session

end RakNet
