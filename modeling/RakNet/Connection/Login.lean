/-
The login order.

A stream of the listener starts in `Connecting` and is meant to become `Connected` when its peer has sent a
`ConnectionRequest`, has been answered, and has sent a `NewIncomingConnection`. `handle_frame` looks at the packet id of
the last of these and at nothing else: it neither decodes the packet nor remembers whether a request was answered.

- `becomesConnected_iff`: a step establishes the connection exactly when it handles a frame with that id while the
  connection is being set up.
- `login_in_order_iff`: the login order holds in a run exactly when the peer keeps to it.
- `one_byte_login`: a peer that does not.
-/
import RakNet.Connection.Session
import RakNet.Protocol.Handshake

namespace RakNet

open Lib Lib.Wire

namespace Conn

open Action

/-! ## Answers to connection requests -/

/-- the frame is a connection request that is answered: it decodes, and the socket takes the answer -/
def answers (env : Env) (s : ConnectionState) (f : Frame) : Bool :=
  kindIn s f == .request && advanceOk f && (decodeConnectionRequest f.payload).isOk && env.peerAddr.isOk &&
    env.sendError.isNone

theorem framesSent_socketSend (env : Env) (packet : Bytes) : Preserves (·.framesSent) (socketSend env packet) :=
  (wire_socketSend env packet).comp (·.framesSent)

theorem framesSent_handleConnectedPong (p : Profile) (env : Env) (packet : Bytes) :
    Preserves (·.framesSent) (handleConnectedPong p env packet) := by
  refine (preserves_lift _ _).bind fun t => (preserves_get _).bind fun c => ?_
  cases c.shared.pendingPings[t.1.toNat]? with
  | none => exact preserves_pure _ _
  | some sendTime => exact Preserves.bind (fun _ => rfl) fun _ => fun _ => rfl

theorem framesSent_advanceChannel (f : Frame) : Preserves (·.framesSent) (advanceChannel f) :=
  (preserves_advanceChannel f).comp (·.framesSent)

theorem framesSent_markReady : Preserves (·.framesSent) markReady := preserves_markReady.comp (·.framesSent)

/-- the answer to a request goes out in a frame of its own -/
theorem framesSent_handleConnectionRequest {env : Env} {packet : Bytes} {guid requestTimestamp : UInt64} {addr : SocketAddr}
    (hd : decodeConnectionRequest packet = .ok (guid, requestTimestamp)) (haddr : env.peerAddr = .ok addr)
    (hsend : env.sendError = none) (c : Conn) :
    (handleConnectionRequest env packet c).2.framesSent = c.framesSent ++
      [nextFrame c.shared (encodeConnectionRequestAccepted addr requestTimestamp env.unixMillis) none] := by
  unfold handleConnectionRequest
  rw [bind_of_ok (show Action.lift (decodeConnectionRequest packet) c = (.ok (guid, requestTimestamp), c) by rw [hd]; rfl)]
  dsimp only
  rw [bind_of_ok (show peerAddr env c = (.ok addr, c) by unfold peerAddr; rw [haddr]; rfl), sendReliableFrame,
    sendFrame_ok hsend]
  rfl

/-- a request that is not answered sends nothing -/
theorem framesSent_of_not_ok {env : Env} {packet : Bytes}
    (h : ((decodeConnectionRequest packet).isOk && env.peerAddr.isOk && env.sendError.isNone) = false) (c : Conn) :
    (handleConnectionRequest env packet c).2.framesSent = c.framesSent := by
  unfold handleConnectionRequest
  rw [bind_apply, lift_apply]
  cases hd : decodeConnectionRequest packet with
  | ok r =>
    dsimp only
    rw [bind_apply, peerAddr]
    cases haddr : env.peerAddr with
    | error msg => rfl
    | ok addr =>
      cases hsend : env.sendError with
      | none =>
        rw [hd, haddr, hsend] at h
        cases h
      | some msg =>
        dsimp only [pure_apply]
        rw [sendReliableFrame, sendFrame_err hsend]
  | err e => rfl
  | panic => rfl

/-- one that is answered sends the answer -/
theorem framesSent_of_ok {env : Env} {packet : Bytes}
    (h : ((decodeConnectionRequest packet).isOk && env.peerAddr.isOk && env.sendError.isNone) = true) (c : Conn) :
    ∃ guid requestTimestamp addr frame, decodeConnectionRequest packet = .ok (guid, requestTimestamp) ∧
      (handleConnectionRequest env packet c).2.framesSent = c.framesSent ++ [frame] ∧
      frame.payload = encodeConnectionRequestAccepted addr requestTimestamp env.unixMillis := by
  simp only [Bool.and_eq_true, Option.isNone_iff_eq_none] at h
  obtain ⟨⟨hdecodes, hpeer⟩, hsend⟩ := h
  obtain ⟨r, hd⟩ := Outcome.isOk_iff.1 hdecodes
  cases haddr : env.peerAddr with
  | ok addr => exact ⟨r.1, r.2, addr, _, hd, framesSent_handleConnectionRequest hd haddr hsend c, rfl⟩
  | error msg =>
    rw [haddr] at hpeer
    cases hpeer

/-- **Only an answered connection request sends a frame**, and that frame is the answer. -/
theorem framesSent_handleFrame (p : Profile) (env : Env) (f : Frame) (c : Conn) :
    (answers env c.shared.state f = false → (handleFrame p env f c).2.framesSent = c.framesSent) ∧
    (answers env c.shared.state f = true → ∃ guid requestTimestamp addr frame,
      decodeConnectionRequest f.payload = .ok (guid, requestTimestamp) ∧
      (handleFrame p env f c).2.framesSent = c.framesSent ++ [frame] ∧
      frame.payload = encodeConnectionRequestAccepted addr requestTimestamp env.unixMillis) := by
  rw [handleFrame_eq, kind_eq]
  unfold answers
  cases hk : kindIn c.shared.state f with
  | empty | disconnect | echo => exact ⟨fun _ => rfl, fun h => by simp at h⟩
  | ping =>
    have hping : Preserves (·.framesSent) (handleConnectedPing env f.payload) :=
      (preserves_lift _ _).bind fun _ => framesSent_socketSend env _
    exact ⟨fun _ => hping c, fun h => by simp at h⟩
  | pong => exact ⟨fun _ => framesSent_handleConnectedPong p env f.payload c, fun h => by simp at h⟩
  | game => exact ⟨fun _ => (preserves_handleGamePacket p env f).comp (·.framesSent) c, fun h => by simp at h⟩
  | incoming =>
    have hready := (framesSent_advanceChannel f).bind fun _ => framesSent_markReady
    exact ⟨fun _ => hready c, fun h => by simp at h⟩
  | request =>
    -- the channel comes first; the request is looked at only if the channel exists
    have hadv : (advanceChannel f c).2.framesSent = c.framesSent := framesSent_advanceChannel f c
    have hok := advanceChannel_isOk f c
    simp only [FrameKind.act, bind_apply, beq_self_eq_true, Bool.true_and]
    cases hr : advanceChannel f c with
    | mk r c' =>
      rw [hr] at hadv hok
      cases r with
      | ok u =>
        have hchan : advanceOk f = true := hok.symm
        rw [hchan, Bool.true_and]
        dsimp only at hadv
        rw [← hadv]
        exact ⟨fun h => framesSent_of_not_ok h c', fun h => framesSent_of_ok h c'⟩
      | err e =>
        rw [← hok]
        exact ⟨fun _ => hadv, fun h => by simp [Outcome.isOk] at h⟩
      | panic =>
        rw [← hok]
        exact ⟨fun _ => hadv, fun h => by simp [Outcome.isOk] at h⟩

/-- the frame takes a connection that is being set up to `Connected` -/
def establishes (s : ConnectionState) (f : Frame) : Bool :=
  s == .connecting && kindIn s f == .incoming && advanceOk f

theorem stateAfter_connected_iff {s : ConnectionState} (hs : s ≠ .connected) (f : Frame) :
    stateAfter s f = .connected ↔ establishes s f = true := by
  unfold stateAfter establishes
  cases hk : kindIn s f with
  | incoming =>
    dsimp only
    rw [ConnectionState.transition_connected]
    cases advanceOk f with
    | false => simpa using hs
    | true =>
      by_cases hc : s = .connecting
      · simp [hc]
      · simpa [hc] using hs
  | disconnect => simp
  | _ => simpa using hs

end Conn

namespace Session

open Conn Action

/-! ## Runs -/

/-- the step handles a connection request and answers it: a frame with `ConnectionRequestAccepted` goes out -/
def Answered (p : Profile) (s : Session) (op : Op) : Prop :=
  ∃ f guid requestTimestamp addr acceptedTimestamp frame, frameOf p s op = some f ∧
    decodeConnectionRequest f.payload = .ok (guid, requestTimestamp) ∧
    (step p s op).conn.framesSent = s.conn.framesSent ++ [frame] ∧
    frame.payload = encodeConnectionRequestAccepted addr requestTimestamp acceptedTimestamp

/-- the connection becomes `Connected` only through a frame that decodes as a `NewIncomingConnection`, and only after a
connection request was answered -/
def LoginInOrder (p : Profile) (s : Session) (ops : List Op) : Prop :=
  ∀ a op b, ops = a ++ op :: b → (run p s a).conn.shared.state ≠ .connected →
    (step p (run p s a) op).conn.shared.state = .connected →
      (∃ f, frameOf p (run p s a) op = some f ∧ (decodeNewIncomingConnection f.payload).isOk = true) ∧
      ∃ a₁ op₁ a₂, a = a₁ ++ op₁ :: a₂ ∧ Answered p (run p s a₁) op₁

/-- the step handles a frame that is a connection request and is answered -/
def answersRequest (p : Profile) (s : Session) : Op → Bool
  | .frame env =>
    match frameOf p s (.frame env) with
    | some f => answers env s.conn.shared.state f
    | none => false
  | _ => false

/-- the peer keeps to the login order: the packet id that ends the login comes only when a request has been answered, and
on a packet that decodes -/
def peerInOrder (p : Profile) : Session → Bool → List Op → Prop
  | _, _, [] => True
  | s, answered, op :: ops =>
    (∀ f, frameOf p s op = some f → establishes s.conn.shared.state f = true →
      (decodeNewIncomingConnection f.payload).isOk = true ∧ answered = true) ∧
    peerInOrder p (step p s op) (answered || answersRequest p s op) ops

theorem framesSent_settle (env : Env) (len : Nat) (r : Result (Option Bytes) × Conn) :
    (settle env len r).conn.framesSent = r.2.framesSent := by
  obtain ⟨res, c⟩ := r
  cases res with
  | ok rest => cases rest <;> rfl
  | err e => rfl
  | panic => rfl

/-- the two ways of saying that a request is answered: by the input, and by what goes out -/
theorem answered_iff {p : Profile} {s : Session} {op : Op} : Answered p s op ↔ answersRequest p s op = true := by
  unfold Answered
  cases hf : frameOf p s op with
  | none =>
    refine iff_of_false (by simp) ?_
    unfold answersRequest
    cases op with
    | frame env => simp [hf]
    | _ => simp
  | some f =>
    obtain ⟨env, len, x, b, rest, rfl, hph, hd⟩ := frameOf_eq_some hf
    have hsent : (step p s (.frame env)).conn.framesSent = (handleFrame p env f s.conn).2.framesSent := by
      rw [step_frame_eq hph, framesSent_settle, frameStep_conn hd]
    obtain ⟨hno, hyes⟩ := framesSent_handleFrame p env f s.conn
    have hinput : answersRequest p s (.frame env) = answers env s.conn.shared.state f := by
      simp only [answersRequest, hf]
    rw [hsent, hinput]
    constructor
    · rintro ⟨g, guid, ts, addr, now, frame, hg, hdec, hout, -⟩
      by_contra hans
      rw [hno (by simpa using hans)] at hout
      exact absurd hout (by simp)
    · intro hans
      obtain ⟨guid, ts, addr, frame, hdec, hout, hpay⟩ := hyes hans
      exact ⟨f, guid, ts, addr, env.unixMillis, frame, rfl, hdec, hout, hpay⟩

/-- **When a step establishes the connection.** -/
theorem becomesConnected_iff {p : Profile} {s : Session} {op : Op} (hs : s.conn.shared.state ≠ .connected) :
    (step p s op).conn.shared.state = .connected ↔
      ∃ f, frameOf p s op = some f ∧ establishes s.conn.shared.state f = true := by
  cases hf : frameOf p s op with
  | none =>
    refine iff_of_false ?_ (by simp)
    intro hcon
    rcases (step_no_frame hf).1 with hstay | hend
    · exact hs (hstay.symm.trans hcon)
    · rw [hcon] at hend
      cases hend
  | some f =>
    obtain ⟨env, -, hstate, -⟩ := step_frame hf
    rw [hstate, stateAfter_connected_iff hs]
    simp

/-- the login order of a run in which a request may already have been answered -/
theorem inOrder_iff (p : Profile) (s : Session) (answered : Bool) (ops : List Op) :
    (∀ a op b, ops = a ++ op :: b → (run p s a).conn.shared.state ≠ .connected →
      (step p (run p s a) op).conn.shared.state = .connected →
        (∃ f, frameOf p (run p s a) op = some f ∧ (decodeNewIncomingConnection f.payload).isOk = true) ∧
        (answered = true ∨ ∃ a₁ op₁ a₂, a = a₁ ++ op₁ :: a₂ ∧ Answered p (run p s a₁) op₁)) ↔
      peerInOrder p s answered ops := by
  induction ops generalizing s answered with
  | nil => exact iff_of_true (fun a op b h => absurd h (by simp)) trivial
  | cons op ops ih =>
    rw [peerInOrder, ← ih]
    constructor
    · intro h
      constructor
      · intro f hf hest
        have hne : s.conn.shared.state ≠ .connected := by
          intro hcon
          rw [hcon] at hest
          cases hest
        obtain ⟨⟨g, hg, hdec⟩, hans⟩ := h [] op ops rfl hne ((becomesConnected_iff hne).2 ⟨f, hf, hest⟩)
        rw [show frameOf p (run p s []) op = frameOf p s op from rfl, hf] at hg
        cases hg
        refine ⟨hdec, hans.resolve_right ?_⟩
        rintro ⟨a₁, op₁, a₂, he, -⟩
        exact absurd he (by simp)
      · rintro a op' b rfl hne hcon
        obtain ⟨hdec, hans⟩ := h (op :: a) op' b rfl hne hcon
        refine ⟨hdec, ?_⟩
        rcases hans with hans | hans
        · exact Or.inl (by rw [hans]; rfl)
        · -- the request was answered by this step, or by a later one
          rcases Machine.exists_step_cons.1 hans with hans | hans
          · exact Or.inl (by rw [answered_iff.1 hans, Bool.or_true])
          · exact Or.inr hans
    · rintro ⟨hone, hrest⟩ a op' b he hne hcon
      cases a with
      | nil =>
        obtain ⟨rfl, rfl⟩ := List.cons.inj he
        obtain ⟨f, hf, hest⟩ := (becomesConnected_iff hne).1 hcon
        obtain ⟨hdec, hans⟩ := hone f hf hest
        exact ⟨⟨f, hf, hdec⟩, Or.inl hans⟩
      | cons o a =>
        obtain ⟨rfl, rfl⟩ := List.cons.inj he
        obtain ⟨hdec, hans⟩ := hrest a op' b rfl hne hcon
        refine ⟨hdec, ?_⟩
        rcases hans with hans | hans
        · rcases Bool.or_eq_true_iff.1 hans with hans | hans
          · exact Or.inl hans
          · exact Or.inr (Machine.exists_step_cons.2 (.inl (answered_iff.2 hans)))
        · exact Or.inr (Machine.exists_step_cons.2 (.inr hans))

/-- **The login order.** For every run of a fresh stream, whatever packets come in and whatever else happens to the
connection, the order holds if and only if the peer keeps to it. -/
theorem login_in_order_iff (p : Profile) (mtu : UInt16) (nowMicros : Nat) (ready : Bool) (ops : List Op) :
    LoginInOrder p (init mtu nowMicros ready) ops ↔ peerInOrder p (init mtu nowMicros ready) false ops := by
  rw [← inOrder_iff]
  simp [LoginInOrder]

/-- a datagram with one unreliable frame -/
def oneFrame (payload : Bytes) : Bytes := encodeDatagram (U24.new 0) [(Frame.new .unreliable payload).encode]

/-- the receive task takes the datagram and its frames; the first is made of the bytes of the datagram's number -/
def oneByteLogin : List Op := [.check, .recv quietEnv (oneFrame [0x13]), .frame quietEnv]

/-- **A login of one byte.** No connection request was sent, and the byte 0x13 alone is no `NewIncomingConnection`; the
stream is connected and handed to the listener. -/
theorem one_byte_login :
    (run .dev (init 1500 0 true) oneByteLogin).conn.shared.state = .connecting ∧
    (run .dev (init 1500 0 true) (oneByteLogin ++ [.frame quietEnv])).conn.shared.state = .connected ∧
    (run .dev (init 1500 0 true) (oneByteLogin ++ [.frame quietEnv])).conn.notified = 1 ∧
    (decodeNewIncomingConnection [0x13]).isOk = false ∧
    ¬ LoginInOrder .dev (init 1500 0 true) (oneByteLogin ++ [.frame quietEnv]) := by
  refine ⟨by decide, by decide, by decide, by decide, ?_⟩
  intro h
  obtain ⟨⟨f, hf, hdec⟩, -⟩ := h oneByteLogin (.frame quietEnv) [] rfl (by decide) (by decide)
  rw [show frameOf .dev (run .dev (init 1500 0 true) oneByteLogin) (.frame quietEnv) =
    some (Frame.new .unreliable [0x13]) by decide] at hf
  cases hf
  exact absurd hdec (by decide)

end Session

end RakNet
