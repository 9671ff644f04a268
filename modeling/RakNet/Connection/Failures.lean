/-
Errors in the middle of a datagram.

`handle_datagram` marks its number as received and records the acknowledgement before it looks at the frames, and the first
frame that does not decode, or whose handler fails, ends the call. Nothing is taken back: a datagram whose number was
accepted stays accepted and acknowledged, and the frames behind the failure are never handled.

- `handleFrame_isErr`: `frameFails` says exactly when `handle_frame` returns an error.
- `frameLoop_isErr`, `handleDatagram_isErr`: and when the frame loop and `handle_datagram` do.
- `atomic_iff`: a failing call leaves the window and the pending ACKs as they were, exactly when there is no such call: the
  number is refused, or no frame fails.
- `failed_datagram_acknowledged`: a datagram that is cut short.
-/
import RakNet.Connection.Panics

namespace RakNet

open Lib Lib.Wire

namespace RecvWindow

variable {n : Nat}

theorem slideTo_totalReceived (w : RecvWindow n) (seq : Nat) : (w.slideTo seq).totalReceived = w.totalReceived := by
  unfold slideTo
  dsimp only
  split_ifs <;> rfl

/-- **A number that is accepted is counted**, so the window is not the same. -/
theorem totalReceived_markReceived {w : RecvWindow n} {seq : Nat} (h : (w.markReceived seq).1 = some true) :
    (w.markReceived seq).2.totalReceived = w.totalReceived + 1 := by
  unfold markReceived at h ⊢
  dsimp only at h ⊢
  split_ifs at h ⊢ with hold hin hseen hslid
  · cases h
  · rfl
  · exact congrArg (· + 1) (w.slideTo_totalReceived seq)

theorem markReceived_ne {w : RecvWindow n} {seq : Nat} (h : (w.markReceived seq).1 = some true) :
    (w.markReceived seq).2 ≠ w := by
  intro hsame
  have hcount := totalReceived_markReceived h
  rw [hsame] at hcount
  omega

end RecvWindow

namespace Profile

theorem isErr_add (p : Profile) (w a b : Nat) : (p.add w a b).isErr = false := by
  unfold add
  split_ifs
  · rfl
  · cases p <;> rfl

theorem isErr_mul (p : Profile) (w a b : Nat) : (p.mul w a b).isErr = false := by
  unfold mul
  split_ifs
  · rfl
  · cases p <;> rfl

end Profile

namespace Conn

open Action

/-! ## Handlers that never fail -/

theorem faultless_onShared {α : Type} (g : SharedState → α × SharedState) : Faultless (onShared g) := fun _ => rfl

theorem faultless_onChannel {α : Type} (channel : UInt8) (g : OrderedChannel → α × OrderedChannel) :
    Faultless (onChannel channel g) := by
  unfold onChannel
  split_ifs
  · exact faultless_onShared _
  · exact faultless_lift rfl

theorem faultless_advanceChannel (f : Frame) : Faultless (advanceChannel f) := by
  unfold advanceChannel
  refine Faultless.ite ?_ (faultless_pure _)
  cases f.orderIndex with
  | none => exact faultless_pure _
  | some i => exact faultless_onChannel _ _

theorem faultless_markReady : Faultless markReady := (faultless_modify _).bind fun _ => faultless_modify _

theorem faultless_deliverFramePayload (p : Profile) (env : Env) (f : Frame) : Faultless (deliverFramePayload p env f) := by
  unfold deliverFramePayload
  cases f.split with
  | none => exact faultless_modify _
  | some info =>
    refine (faultless_lift (Profile.isErr_add p _ _ _)).bind fun _ => (faultless_onShared _).bind fun r => ?_
    cases r with
    | none => exact faultless_pure _
    | some data => exact faultless_modify _

theorem faultless_handleGamePacket (p : Profile) (env : Env) (f : Frame) : Faultless (handleGamePacket p env f) := by
  rw [handleGamePacket_eq]
  refine Faultless.ite ?_ (faultless_deliverFramePayload p env f)
  exact (faultless_onChannel _ _).bind fun _ => faultless_modify _

theorem faultless_updateRtt (p : Profile) (sample : Nat) : Faultless (ConnectionMetrics.updateRtt p sample) := by
  refine faultless_get.bind fun m => (faultless_lift (Profile.isErr_mul p _ _ _)).bind fun _ => ?_
  refine (faultless_lift (Profile.isErr_add p _ _ _)).bind fun _ => (faultless_modify _).bind fun _ => ?_
  refine (faultless_lift (Profile.isErr_mul p _ _ _)).bind fun _ => ?_
  exact (faultless_lift (Profile.isErr_add p _ _ _)).bind fun _ => faultless_modify _

/-! ## Handlers that fail -/

/-- the handler of the frame returns an error: a ping or a pong that does not decode, a ping whose answer cannot be sent, a
connection request that does not decode or cannot be answered -/
def frameFails (env : Env) (c : Conn) (f : Frame) : Bool :=
  match kind c f with
  | .ping => !((decodeConnectedPing f.payload).isOk && env.sendError.isNone)
  | .pong => !(decodeConnectedPong f.payload).isOk
  | .request =>
    advanceOk f && !((decodeConnectionRequest f.payload).isOk && env.peerAddr.isOk && env.sendError.isNone)
  | .empty | .disconnect | .incoming | .echo | .game => false

theorem handleConnectedPong_isErr (p : Profile) (env : Env) (packet : Bytes) (c : Conn) :
    (handleConnectedPong p env packet c).1.isErr = !(decodeConnectedPong packet).isOk := by
  have hdecode := Outcome.isErr_of_ne_panic (decodeConnectedPong_ne_panic packet)
  rw [← hdecode]
  -- nothing behind the decoder fails
  refine Bool.eq_iff_iff.2 (err_bind_faultless_iff (fun t => faultless_get.bind fun c => ?_) c)
  cases c.shared.pendingPings[t.1.toNat]? with
  | none => exact faultless_pure _
  | some sendTime => exact (faultless_modify _).bind fun _ => fun s => faultless_updateRtt p _ s.shared.metrics

theorem handleConnectedPing_isErr (env : Env) (packet : Bytes) (c : Conn) :
    (handleConnectedPing env packet c).1.isErr = !((decodeConnectedPing packet).isOk && env.sendError.isNone) := by
  have hok : (handleConnectedPing env packet c).1.isOk = ((decodeConnectedPing packet).isOk && env.sendError.isNone) := by
    unfold handleConnectedPing
    rw [bind_isOk, lift_apply]
    cases decodeConnectedPing packet with
    | ok t =>
      dsimp only
      unfold socketSend
      cases env.sendError <;> rfl
    | err e => rfl
    | panic => rfl
  rw [← hok]
  exact Outcome.isErr_of_ne_panic (calm_handleConnectedPing env packet c)

theorem request_isErr (env : Env) (f : Frame) (c : Conn) :
    ((advanceChannel f >>= fun _ => handleConnectionRequest env f.payload) c).1.isErr =
      (advanceOk f && !((decodeConnectionRequest f.payload).isOk && env.peerAddr.isOk && env.sendError.isNone)) := by
  have hadvance := advanceChannel_isOk f c
  have hplain := faultless_advanceChannel f c
  rw [bind_apply]
  cases hr : advanceChannel f c with
  | mk r c' =>
    rw [hr] at hadvance hplain
    rw [← hadvance]
    cases r with
    | ok u =>
      rw [← handleConnectionRequest_isOk env f.payload c']
      exact Outcome.isErr_of_ne_panic (calm_handleConnectionRequest env f.payload c')
    | err e => cases hplain
    | panic => rfl

/-- **When `handle_frame` fails.** -/
theorem handleFrame_isErr (p : Profile) (env : Env) (f : Frame) (c : Conn) :
    (handleFrame p env f c).1.isErr = frameFails env c f := by
  rw [handleFrame_eq]
  unfold frameFails
  cases kind c f with
  | empty | disconnect | echo => rfl
  | ping => exact handleConnectedPing_isErr env f.payload c
  | pong => exact handleConnectedPong_isErr p env f.payload c
  | request => exact request_isErr env f c
  | incoming => exact ((faultless_advanceChannel f).bind fun _ => faultless_markReady) c
  | game => exact faultless_handleGamePacket p env f c

/-! ## Datagrams that fail -/

/-- the frame loop meets a frame that does not decode, or one whose handler fails -/
def loopFails (p : Profile) : Nat → (Nat → Env) → Bytes → Conn → Bool
  | _, _, [], _ => false
  | 0, _, _ :: _, _ => false
  | fuel + 1, envs, x :: b, c =>
    match Frame.decode p (x :: b) with
    | .ok (frame, rest) =>
      frameFails (envs 0) c frame ||
        handlerOk p (envs 0) c frame &&
          loopFails p fuel (fun i => envs (i + 1)) rest (handleFrame p (envs 0) frame c).2
    | .err _ => true
    | .panic => false

/-- **When the frame loop fails.** -/
theorem frameLoop_isErr (p : Profile) (fuel : Nat) (envs : Nat → Env) (b : Bytes) (c : Conn) :
    (frameLoop p fuel envs b c).1.isErr = loopFails p fuel envs b c := by
  induction fuel generalizing envs b c with
  | zero => cases b <;> rfl
  | succ fuel ih =>
    cases b with
    | nil => rfl
    | cons x b =>
      unfold frameLoop loopFails
      rw [bind_apply, lift_apply]
      cases Frame.decode p (x :: b) with
      | err e => rfl
      | panic => rfl
      | ok r =>
        dsimp only
        rw [← handleFrame_isErr p, ← handleFrame_isOk, ← ih, bind_apply]
        cases handleFrame p (envs 0) r.1 c with
        | mk res c' => cases res <;> rfl

theorem handleDatagram_isErr (p : Profile) (envs : Nat → Env) (seq : U24) (framesData : Bytes) (c : Conn) :
    (handleDatagram p envs seq framesData c).1.isErr =
      ((c.shared.recvWindow.markReceived seq.get).1 == some true &&
        loopFails p framesData.length envs framesData (recorded seq c)) := by
  rw [handleDatagram_apply]
  split_ifs with h
  · rw [h, frameLoop_isErr]
    rfl
  · rw [beq_eq_false_iff_ne.2 h]
    rfl

/-- if the call fails, the window and the pending ACKs are as they were -/
def Atomic (p : Profile) (envs : Nat → Env) (seq : U24) (framesData : Bytes) (c : Conn) : Prop :=
  (handleDatagram p envs seq framesData c).1.isErr = true →
    (handleDatagram p envs seq framesData c).2.shared.recvWindow = c.shared.recvWindow ∧
      (handleDatagram p envs seq framesData c).2.shared.pendingAcks = c.shared.pendingAcks

/-- **Errors are not taken back.** In every state and for every datagram, a failing call leaves the window and the pending
ACKs as they were if and only if the number is refused, or no frame fails: if and only if the call does not fail. -/
theorem atomic_iff (p : Profile) (envs : Nat → Env) (seq : U24) (framesData : Bytes) (c : Conn) :
    Atomic p envs seq framesData c ↔
      (c.shared.recvWindow.markReceived seq.get).1 ≠ some true ∨
        loopFails p framesData.length envs framesData (recorded seq c) = false := by
  unfold Atomic
  rw [handleDatagram_isErr]
  constructor
  · intro h
    by_contra hno
    obtain ⟨hnew, hfails⟩ := not_or.1 hno
    rw [not_not] at hnew
    have hview := congrArg Prod.fst (ackView_handleDatagram p envs seq framesData c)
    have hwindow : (handleDatagram p envs seq framesData c).2.shared.recvWindow =
        (c.shared.recvWindow.markReceived seq.get).2 := hview
    obtain ⟨hsame, -⟩ := h (by rw [hnew, Bool.eq_true_of_not_eq_false hfails]; rfl)
    exact RecvWindow.markReceived_ne hnew (hwindow.symm.trans hsame)
  · intro hor herr
    rw [Bool.and_eq_true, beq_iff_eq] at herr
    rcases hor with hrefused | hfine
    · exact absurd herr.1 hrefused
    · rw [hfine] at herr
      cases herr.2

/-- a datagram with the first byte of a frame in it -/
def cutDatagram : Bytes := encodeDatagram (U24.new 0) [[0x40]]

/-- what it hands to the frame loop: the bytes of its number, and half a frame -/
def cutFrames : Bytes := [0, 0, 0, 0x40]

/-- **A broken datagram is acknowledged.** A fresh stream that gets it returns an error; the number is marked and recorded,
and an intact copy that comes later is refused. -/
theorem failed_datagram_acknowledged :
    decodeDatagram cutDatagram = .ok (U24.new 0, cutFrames) ∧
      (handleDatagram .dev (fun _ => quietEnv) (U24.new 0) cutFrames (new 1500 0 false)).1 =
        .err (.invalidPacket "Frame too short") ∧
      (handleDatagram .dev (fun _ => quietEnv) (U24.new 0) cutFrames (new 1500 0 false)).2.shared.pendingAcks =
        ⟨[.single (U24.new 0)]⟩ ∧
      ((handleDatagram .dev (fun _ => quietEnv) (U24.new 0) cutFrames
        (new 1500 0 false)).2.shared.recvWindow.markReceived 0).1 = some false ∧
      ¬ Atomic .dev (fun _ => quietEnv) (U24.new 0) cutFrames (new 1500 0 false) := by
  refine ⟨by decide, by decide, by decide, by decide, ?_⟩
  intro h
  exact absurd (h (by decide)).2 (by decide)

end Conn

end RakNet
