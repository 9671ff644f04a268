/-
When the receive path panics.

Every decoder checks the bytes left before it reads, so no packet makes one read past its buffer. Four things remain: the
order channel of a frame is used as an index into an array of 16 without a check, and, in a build that checks its
arithmetic, the bit length of a frame header is rounded up in a `u16`, the index of a fragment is incremented for a log
line, and the smoothed round-trip time is computed with plain `u64` operators.

- `handleFrame_panic_iff`: `frameSafe` says exactly when `handle_frame` does not panic.
- `handlePacket_ne_panic_iff`: `packetSafe` says exactly when `handle_packet` does not.
- `order_channel_panics`: one datagram of a peer that panics in either build.
-/
import RakNet.Connection.Lifecycle

namespace RakNet

open Lib Lib.Wire

/-! ## Round-trip times -/

namespace ConnectionMetrics

/-- the two averages of `update_rtt` fit in 64 bits -/
def rttFits (m : ConnectionMetrics) (sample : Nat) : Bool :=
  decide (m.rtt * 7 + sample < 2 ^ 64) &&
    decide (m.rttVar * 3 + (if m.rtt < sample then sample - m.rtt else m.rtt - sample) < 2 ^ 64)

/-- a weighted sum `a * k + b` in plain operators, and what is done with it -/
theorem weighted_panic_iff {σ : Type} (p : Profile) (w a k b : Nat) (g : Nat → Action σ Error Unit) (m : σ) :
    ((Action.lift (p.mul w a k) >>= fun x => Action.lift (p.add w x b) >>= g) m).1 = .panic ↔
      (p = .dev ∧ ¬ a * k + b < 2 ^ w) ∨
      ∃ n, (p = .release ∨ a * k + b < 2 ^ w) ∧ n = (a * k + b) % 2 ^ w ∧ (g n m).1 = .panic := by
  rw [Action.panic_bind_iff]
  simp only [Action.panic_bind_iff, Action.lift_apply]
  cases p with
  | dev =>
    by_cases h1 : a * k < 2 ^ w
    · simp only [Profile.mul, if_pos h1, Profile.add]
      by_cases h2 : a * k + b < 2 ^ w
      · simp [h2, Nat.mod_eq_of_lt h2]
      · exact iff_of_true (Or.inr ⟨a * k, rfl, Or.inl (if_neg h2)⟩) (Or.inl ⟨trivial, h2⟩)
    · have h2 : ¬ a * k + b < 2 ^ w := fun h => h1 (Nat.lt_of_le_of_lt (Nat.le_add_right _ _) h)
      simp [Profile.mul, h1, h2]
  | release =>
    have hmul : Profile.release.mul w a k = .ok (a * k % 2 ^ w) := by
      unfold Profile.mul
      split_ifs with h
      · rw [Nat.mod_eq_of_lt h]
      · rfl
    have hadd : Profile.release.add w (a * k % 2 ^ w) b = .ok ((a * k + b) % 2 ^ w) := by
      unfold Profile.add
      split_ifs with h
      · rw [← Nat.mod_eq_of_lt h, Nat.mod_add_mod]
      · rw [Nat.mod_add_mod]
    simp [hmul, hadd]

/-- **When `update_rtt` panics**: in a `dev` build, on a sample for which one of the averages does not fit. -/
theorem updateRtt_panic_iff (p : Profile) (sample : Nat) (m : ConnectionMetrics) :
    (updateRtt p sample m).1 = .panic ↔ p = .dev ∧ rttFits m sample = false := by
  unfold updateRtt
  rw [Action.get_bind, weighted_panic_iff]
  simp only [Action.modify_bind, weighted_panic_iff, Action.modify_apply]
  unfold rttFits
  cases p with
  | dev =>
    generalize m.rttVar * 3 + (if m.rtt < sample then sample - m.rtt else m.rtt - sample) = varSum
    simp only [true_and, reduceCtorEq, false_or, Bool.and_eq_false_iff, decide_eq_false_iff_not, and_false, exists_false,
      or_false, exists_and_left, exists_eq_left]
    tauto
  | release => simp

end ConnectionMetrics

namespace Conn

open Action

/-! ## Frames -/

/-- the round-trip time of an answered ping fits, or is not checked -/
def pongSafe (p : Profile) (env : Env) (packet : Bytes) (c : Conn) : Bool :=
  match decodeConnectedPong packet with
  | .ok (pingTimestamp, _) =>
    match c.shared.pendingPings[pingTimestamp.toNat]? with
    | none => true
    | some sendTime => p == .release || c.shared.metrics.rttFits ((env.now - sendTime) / 1000 % 2 ^ 64)
  | _ => true

/-- a game frame: an unsplit ordered one names a channel that exists, the index of a fragment can be incremented -/
def gameSafe (p : Profile) (f : Frame) : Bool :=
  if f.reliability.isOrdered && f.split.isNone then decide (f.orderChannel.toNat < 16)
  else match f.split with
    | none => true
    | some info => p == .release || decide (info.index.toNat + 1 < 2 ^ 32)

/-- the state and the frame the handler can take without a panic -/
def frameSafe (p : Profile) (env : Env) (c : Conn) (f : Frame) : Bool :=
  match kind c f with
  | .pong => pongSafe p env f.payload c
  | .request | .incoming => advanceOk f
  | .game => gameSafe p f
  | .empty | .ping | .disconnect | .echo => true

theorem calm_socketSend (env : Env) (packet : Bytes) : Calm (socketSend env packet) := by
  unfold socketSend
  cases env.sendError with
  | none => exact calm_modify _
  | some msg => exact calm_throw _

theorem calm_handleConnectedPing (env : Env) (packet : Bytes) : Calm (handleConnectedPing env packet) :=
  (calm_lift (decodeConnectedPing_ne_panic packet)).bind fun _ => calm_socketSend env _

theorem calm_handleConnectionRequest (env : Env) (packet : Bytes) : Calm (handleConnectionRequest env packet) := by
  have haddr : Calm (peerAddr env) := by
    unfold peerAddr
    cases env.peerAddr with
    | ok addr => exact calm_pure _
    | error msg => exact calm_throw _
  exact (calm_lift (decodeConnectionRequest_ne_panic packet)).bind fun _ => haddr.bind fun _ => calm_sendFrame env _ none

theorem handleConnectedPong_panic_iff (p : Profile) (env : Env) (packet : Bytes) (c : Conn) :
    (handleConnectedPong p env packet c).1 = .panic ↔ pongSafe p env packet c = false := by
  have hnp := decodeConnectedPong_ne_panic packet
  unfold handleConnectedPong pongSafe
  rw [panic_bind_iff, lift_apply]
  cases hd : decodeConnectedPong packet with
  | ok t =>
    simp only [reduceCtorEq, false_or, Outcome.ok.injEq, exists_eq_left', get_bind]
    cases c.shared.pendingPings[t.1.toNat]? with
    | none => simp
    | some sendTime =>
      rw [modifyShared, modify_bind]
      have h := ConnectionMetrics.updateRtt_panic_iff p ((env.now - sendTime) / 1000 % 2 ^ 64) c.shared.metrics
      rw [Bool.or_eq_false_iff]
      refine h.trans (and_congr_left' ?_)
      cases p <;> simp
  | err e => simp
  | panic => exact absurd hd hnp

theorem advanceChannel_panic_iff (f : Frame) (c : Conn) : (advanceChannel f c).1 = .panic ↔ advanceOk f = false := by
  unfold advanceChannel advanceOk
  cases f.reliability.isOrdered with
  | false => simp
  | true =>
    rw [if_pos rfl]
    cases f.orderIndex with
    | none => simp
    | some i =>
      by_cases h : f.orderChannel.toNat < 16
      · simp [onChannel_of_lt h, h]
      · simp [onChannel_of_not_lt h, h]

theorem handleGamePacket_panic_iff (p : Profile) (env : Env) (f : Frame) (c : Conn) :
    (handleGamePacket p env f c).1 = .panic ↔ gameSafe p f = false := by
  rw [handleGamePacket_eq]
  unfold gameSafe
  split_ifs with hord
  · by_cases h : f.orderChannel.toNat < 16
    · simp [deliverOrdered_apply h, h]
    · simp [deliverOrdered_panic h, h]
  · cases hs : f.split with
    | none => simp [deliverWhole_apply hs]
    | some info =>
      have hadd : (p.add 32 info.index.toNat 1).isOk = (p == .release || decide (info.index.toNat + 1 < 2 ^ 32)) := by
        unfold Profile.add
        by_cases hlt : info.index.toNat + 1 < 2 ^ 32
        · rw [if_pos hlt, decide_eq_true hlt, Bool.or_true]
          rfl
        · rw [if_neg hlt, decide_eq_false hlt]
          cases p <;> rfl
      dsimp only
      rw [← hadd]
      cases hok : (p.add 32 info.index.toNat 1).isOk with
      | true => simp [deliverFragment_apply hs hok]
      | false => simp [deliverFragment_panic hs hok]

/-- **When `handle_frame` panics.** -/
theorem handleFrame_panic_iff (p : Profile) (env : Env) (f : Frame) (c : Conn) :
    (handleFrame p env f c).1 = .panic ↔ frameSafe p env c f = false := by
  rw [handleFrame_eq]
  unfold frameSafe
  cases kind c f with
  | empty | disconnect | echo => simp [FrameKind.act, modifyShared]
  | ping => exact iff_of_false (calm_handleConnectedPing env f.payload c) (by simp)
  | pong => exact handleConnectedPong_panic_iff p env f.payload c
  | game => exact handleGamePacket_panic_iff p env f c
  | request =>
    rw [FrameKind.act, ← advanceChannel_panic_iff f c]
    exact panic_bind_calm_iff (fun _ => calm_handleConnectionRequest env f.payload) c
  | incoming =>
    have hcalm : Calm markReady := (calm_modify _).bind fun _ => calm_modify _
    rw [FrameKind.act, ← advanceChannel_panic_iff f c]
    exact panic_bind_calm_iff (fun _ => hcalm) c

/-! ## Datagrams and packets -/

/-- the frame loop meets no header it cannot round up and no frame its handler cannot take, up to where it stops -/
def loopSafe (p : Profile) : Nat → (Nat → Env) → Bytes → Conn → Bool
  | _, _, [], _ => true
  | 0, _, _ :: _, _ => true
  | fuel + 1, envs, x :: b, c =>
    (p == .release || !Frame.bitsOverflow (x :: b)) &&
      match Frame.decode p (x :: b) with
      | .ok (frame, rest) =>
        frameSafe p (envs 0) c frame &&
          (!handlerOk p (envs 0) c frame ||
            loopSafe p fuel (fun i => envs (i + 1)) rest (handleFrame p (envs 0) frame c).2)
      | _ => true

/-- the state in which `handle_datagram` starts on the frames of a datagram it accepts -/
def recorded (seq : U24) (c : Conn) : Conn := { c with shared := { c.shared with
  recvWindow := (c.shared.recvWindow.markReceived seq.get).2
  pendingAcks := c.shared.pendingAcks.insert seq } }

/-- the state and the packet `handle_packet` can take without a panic -/
def packetSafe (p : Profile) (envs : Nat → Env) (packet : Bytes) (c : Conn) : Bool :=
  match packet with
  | [] => true
  | packetId :: _ =>
    if packetId = idConnectedPong then pongSafe p (envs 0) packet c
    else if isDatagram packetId then
      match decodeDatagram packet with
      | .ok (seq, framesData) =>
        (c.shared.recvWindow.markReceived seq.get).1 != some true ||
          loopSafe p framesData.length envs framesData (recorded seq c)
      | _ => true
    else true

/-- **When the frame loop panics.** -/
theorem frameLoop_panic_iff (p : Profile) {fuel : Nat} (envs : Nat → Env) {b : Bytes} (hfuel : b.length ≤ fuel)
    (c : Conn) : (frameLoop p fuel envs b c).1 = .panic ↔ loopSafe p fuel envs b c = false := by
  induction fuel generalizing envs b c with
  | zero =>
    rw [List.length_eq_zero_iff.1 (Nat.le_zero.1 hfuel)]
    simp [frameLoop, loopSafe]
  | succ fuel ih =>
    cases b with
    | nil => simp [frameLoop, loopSafe]
    | cons x b =>
      have hdec := Frame.decode_eq_panic_iff p (x :: b)
      have hover : (p == .release || !Frame.bitsOverflow (x :: b)) = false ↔
          p = .dev ∧ Frame.bitsOverflow (x :: b) = true := by
        cases p <;> simp
      unfold frameLoop loopSafe
      rw [panic_bind_iff, lift_apply, Bool.and_eq_false_iff, hover, ← hdec]
      cases hd : Frame.decode p (x :: b) with
      | ok r =>
        obtain ⟨frame, rest⟩ := r
        have hlen : rest.length ≤ fuel := by
          have hc := Frame.decode_consumes hd
          have h3 := frame.three_le_encodedSize
          simp only [List.length_cons] at hc hfuel
          omega
        -- the frame after this one is reached exactly when the handler returns `Ok`
        have hok : (∃ a, (handleFrame p (envs 0) frame c).1 = .ok a) ↔ handlerOk p (envs 0) c frame = true := by
          rw [← handleFrame_isOk]
          exact Outcome.isOk_iff.symm
        simp only [reduceCtorEq, false_or, Outcome.ok.injEq, exists_eq_left']
        rw [panic_bind_iff, handleFrame_panic_iff, Bool.and_eq_false_iff, Bool.or_eq_false_iff, ← ih _ hlen,
          Bool.not_eq_false', ← hok, exists_and_right]
      | err e => simp
      | panic => simp

/-- a number that is accepted is recorded, and the frames follow -/
theorem handleDatagram_apply (p : Profile) (envs : Nat → Env) (seq : U24) (framesData : Bytes) (c : Conn) :
    handleDatagram p envs seq framesData c =
      if (c.shared.recvWindow.markReceived seq.get).1 = some true then
        frameLoop p framesData.length envs framesData (recorded seq c)
      else (.ok (), (markReceived seq c).2) := by
  unfold handleDatagram
  rw [bind_of_ok (rfl : markReceived seq c = (.ok _, _))]
  dsimp only
  split_ifs <;> rfl

theorem handleDatagram_panic_iff (p : Profile) (envs : Nat → Env) (seq : U24) (framesData : Bytes) (c : Conn) :
    (handleDatagram p envs seq framesData c).1 = .panic ↔
      ((c.shared.recvWindow.markReceived seq.get).1 != some true ||
        loopSafe p framesData.length envs framesData (recorded seq c)) = false := by
  have hloop := frameLoop_panic_iff p envs (le_refl framesData.length) (recorded seq c)
  rw [handleDatagram_apply]
  split_ifs with h
  · simpa [h] using hloop
  · simp [h]

/-- **When `handle_packet` panics.** -/
theorem handlePacket_panic_iff (p : Profile) (envs : Nat → Env) (packet : Bytes) (c : Conn) :
    (handlePacket p envs packet c).1 = .panic ↔ packetSafe p envs packet c = false := by
  have hbye : Calm (do
      Action.lift (decodeDisconnectNotification packet)
      modifyShared SharedState.markDisconnected : Act Unit) :=
    (calm_lift (decodeDisconnectNotification_ne_panic packet)).bind fun _ => calm_modify _
  unfold handlePacket packetSafe
  cases packet with
  | nil => simp
  | cons packetId rest =>
    dsimp only
    by_cases h1 : packetId = idConnectedPing
    · subst h1
      rw [if_pos rfl, if_neg (by decide), if_neg (by decide)]
      exact iff_of_false (calm_handleConnectedPing _ _ c) (by simp)
    rw [if_neg h1]
    by_cases h2 : packetId = idConnectedPong
    · rw [if_pos h2, if_pos h2]
      exact handleConnectedPong_panic_iff p (envs 0) _ c
    rw [if_neg h2, if_neg h2]
    by_cases h3 : packetId = idDisconnectNotification
    · subst h3
      rw [if_pos rfl, if_neg (by decide)]
      exact iff_of_false (hbye c) (by simp)
    rw [if_neg h3]
    by_cases h4 : isDatagram packetId = true
    · rw [if_pos h4, if_pos h4, panic_bind_iff, lift_apply]
      have hnp := decodeDatagram_ne_panic (packetId :: rest)
      cases hd : decodeDatagram (packetId :: rest) with
      | ok r =>
        simp only [reduceCtorEq, false_or, Outcome.ok.injEq, exists_eq_left']
        exact handleDatagram_panic_iff p envs r.1 r.2 c
      | err e => simp
      | panic => exact absurd hd hnp
    rw [if_neg h4, if_neg h4]
    refine iff_of_false ?_ (by simp)
    split_ifs
    · exact (calm_lift (decodeAckNack_ne_panic _)).bind (fun _ => calm_modify _) c
    · exact (calm_lift (decodeAckNack_ne_panic _)).bind (fun _ => calm_pure _) c
    · simp

/-- **The receive path panics on exactly the packets that are not safe.** For every build, environment, state and
packet, `handle_packet` ends in `Ok` or an error if and only if the packet is safe in that state. -/
theorem handlePacket_ne_panic_iff (p : Profile) (envs : Nat → Env) (packet : Bytes) (c : Conn) :
    (handlePacket p envs packet c).1 ≠ .panic ↔ packetSafe p envs packet c = true := by
  rw [Ne, handlePacket_panic_iff, Bool.not_eq_false]

/-- a game frame on order channel 16, the first that does not exist -/
def strayChannelFrame : Frame :=
  ((Frame.new .reliableOrdered [0xfe]).withMessageIndex (U24.new 0)).withOrder (U24.new 0) 16

/-- **A datagram of fifteen bytes that ends the receive task** of a fresh connection, in either build. -/
theorem order_channel_panics :
    (encodeDatagram (U24.new 0) [strayChannelFrame.encode]).length = 15 ∧
    (handlePacket .dev (fun _ => quietEnv) (encodeDatagram (U24.new 0) [strayChannelFrame.encode])
      (.new 1500 0 true)).1 = .panic ∧
    (handlePacket .release (fun _ => quietEnv) (encodeDatagram (U24.new 0) [strayChannelFrame.encode])
      (.new 1500 0 true)).1 = .panic := by
  decide

end Conn

end RakNet
