/-
The branches of `handle_frame`, one by one: when each returns `Ok`, and what a game frame does.

- `handleFrame_isOk`: `handlerOk` says exactly when `handle_frame` returns `Ok`.
- `deliverOrdered_apply`, `deliverFragment_apply`: an unsplit ordered frame goes through its channel, a fragment through
  the fragment queue.
-/
import RakNet.Connection.Run

namespace RakNet

open Lib Lib.Wire

namespace Conn

/-! ## Channels -/

theorem onChannel_of_lt {α : Type} {channel : UInt8} (h : channel.toNat < 16)
    (g : OrderedChannel → α × OrderedChannel) (c : Conn) :
    onChannel channel g c = (.ok (g c.shared.orderedChannels[channel.toNat]).1,
      { c with shared := c.shared.setChannel ⟨channel.toNat, h⟩ (g c.shared.orderedChannels[channel.toNat]).2 }) := by
  unfold onChannel
  rw [dif_pos h]
  rfl

theorem onChannel_of_not_lt {α : Type} {channel : UInt8} (h : ¬ channel.toNat < 16)
    (g : OrderedChannel → α × OrderedChannel) (c : Conn) : onChannel channel g c = (.panic, c) := by
  unfold onChannel
  rw [dif_neg h]
  rfl

/-! ## What a game frame does -/

/-- the order index `handle_frame` works with -/
def orderIndexOf (f : Frame) : Nat := (f.orderIndex.getD (U24.new 0)).get

/-- an unsplit ordered frame: through its channel -/
theorem deliverOrdered_apply {f : Frame} (h : f.orderChannel.toNat < 16) (c : Conn) :
    deliverOrdered f c = (.ok (), { c with
      appData := c.appData ++ (c.shared.orderedChannels[f.orderChannel.toNat].insert (orderIndexOf f) f.payload).1
      shared := c.shared.setChannel ⟨f.orderChannel.toNat, h⟩
        (c.shared.orderedChannels[f.orderChannel.toNat].insert (orderIndexOf f) f.payload).2 }) := by
  unfold deliverOrdered
  rw [Action.bind_of_ok (onChannel_of_lt h _ c)]
  rfl

/-- its channel does not exist: nothing happens before the panic -/
theorem deliverOrdered_panic {f : Frame} (h : ¬ f.orderChannel.toNat < 16) (c : Conn) :
    deliverOrdered f c = (.panic, c) := by
  unfold deliverOrdered
  rw [Action.bind_apply, onChannel_of_not_lt h]

/-- a fragment: through the fragment queue -/
theorem deliverFragment_apply {p : Profile} {f : Frame} {info : SplitInfo} (hs : f.split = some info)
    (hok : (p.add 32 info.index.toNat 1).isOk = true) (env : Env) (c : Conn) :
    deliverFramePayload p env f c = (.ok (), { c with
      appData := c.appData ++ (c.shared.fragmentQueue.insert env.now info.id.toNat info.index.toNat info.count.toNat
        f.payload).1.toList
      shared := { c.shared with fragmentQueue := (c.shared.fragmentQueue.insert env.now info.id.toNat
        info.index.toNat info.count.toNat f.payload).2 } }) := by
  unfold deliverFramePayload
  rw [hs]
  dsimp only
  cases hadd : p.add 32 info.index.toNat 1 with
  | ok n =>
    rw [Action.bind_of_ok (Action.lift_apply _ _)]
    simp only [Action.bind_apply, onShared]
    cases (c.shared.fragmentQueue.insert env.now info.id.toNat info.index.toNat info.count.toNat f.payload).1 with
    | none => simp
    | some data => rfl
  | err e => rw [hadd] at hok; cases hok
  | panic => rw [hadd] at hok; cases hok

/-- its log line overflows: nothing happens before the panic -/
theorem deliverFragment_panic {p : Profile} {f : Frame} {info : SplitInfo} (hs : f.split = some info)
    (hok : (p.add 32 info.index.toNat 1).isOk = false) (env : Env) (c : Conn) :
    deliverFramePayload p env f c = (.panic, c) := by
  unfold deliverFramePayload
  rw [hs]
  dsimp only
  rw [Action.bind_apply, Action.lift_apply, Profile.add_of_not_isOk hok]

theorem deliverWhole_apply {f : Frame} (hs : f.split = none) (p : Profile) (env : Env) (c : Conn) :
    deliverFramePayload p env f c = (.ok (), { c with appData := c.appData ++ [f.payload] }) := by
  unfold deliverFramePayload
  rw [hs]
  rfl

/-! ## When a handler returns `Ok` -/

/-- the channel of a login frame can be indexed, if it is looked at -/
def advanceOk (f : Frame) : Bool :=
  !f.reliability.isOrdered || f.orderIndex.isNone || decide (f.orderChannel.toNat < 16)

/-- the handler of the frame returns `Ok` in this state -/
def handlerOk (p : Profile) (env : Env) (c : Conn) (f : Frame) : Bool :=
  match kind c f with
  | .ping => (decodeConnectedPing f.payload).isOk && env.sendError.isNone
  | .pong =>
    match decodeConnectedPong f.payload with
    | .ok (pingTimestamp, _) =>
      match c.shared.pendingPings[pingTimestamp.toNat]? with
      | none => true
      | some sendTime => (ConnectionMetrics.updateRtt p ((env.now - sendTime) / 1000 % 2 ^ 64) c.shared.metrics).1.isOk
    | _ => false
  | .request =>
    advanceOk f && (decodeConnectionRequest f.payload).isOk && env.peerAddr.isOk && env.sendError.isNone
  | .incoming => advanceOk f
  | .game =>
    if f.reliability.isOrdered && f.split.isNone then decide (f.orderChannel.toNat < 16)
    else match f.split with
      | none => true
      | some info => (p.add 32 info.index.toNat 1).isOk
  | .empty | .disconnect | .echo => true

theorem advanceChannel_isOk (f : Frame) (c : Conn) : (advanceChannel f c).1.isOk = advanceOk f := by
  unfold advanceChannel advanceOk
  cases hord : f.reliability.isOrdered with
  | false => rfl
  | true =>
    rw [if_pos rfl]
    cases f.orderIndex with
    | none => rfl
    | some i =>
      by_cases h : f.orderChannel.toNat < 16
      · simp [onChannel_of_lt h, h, Outcome.isOk]
      · simp [onChannel_of_not_lt h, h, Outcome.isOk]

/-- an `Ok` of a sequence is an `Ok` of both parts -/
theorem bind_isOk {α β : Type} (x : Act α) (k : α → Act β) (c : Conn) :
    ((x >>= k) c).1.isOk = match x c with
      | (.ok a, c') => (k a c').1.isOk
      | _ => false := by
  rw [Action.bind_apply]
  cases x c with
  | mk r c' => cases r <;> rfl

theorem handleConnectedPong_isOk (p : Profile) (env : Env) (packet : Bytes) (c : Conn) :
    (handleConnectedPong p env packet c).1.isOk =
      match decodeConnectedPong packet with
      | .ok (pingTimestamp, _) =>
        match c.shared.pendingPings[pingTimestamp.toNat]? with
        | none => true
        | some sendTime => (ConnectionMetrics.updateRtt p ((env.now - sendTime) / 1000 % 2 ^ 64) c.shared.metrics).1.isOk
      | _ => false := by
  unfold handleConnectedPong
  rw [bind_isOk, Action.lift_apply]
  cases decodeConnectedPong packet with
  | ok t =>
    dsimp only
    rw [Action.get_bind]
    cases c.shared.pendingPings[t.1.toNat]? with
    | none => rfl
    | some sendTime => rfl
  | err e => rfl
  | panic => rfl

theorem handleConnectionRequest_isOk (env : Env) (packet : Bytes) (c : Conn) :
    (handleConnectionRequest env packet c).1.isOk =
      ((decodeConnectionRequest packet).isOk && env.peerAddr.isOk && env.sendError.isNone) := by
  unfold handleConnectionRequest
  rw [bind_isOk, Action.lift_apply]
  cases decodeConnectionRequest packet with
  | ok r =>
    dsimp only [peerAddr]
    cases env.peerAddr with
    | error msg => rfl
    | ok addr =>
      rw [bind_isOk]
      cases henv : env.sendError with
      | none =>
        rw [Action.pure_apply]
        dsimp only
        rw [sendReliableFrame, sendFrame_ok henv]
        rfl
      | some msg =>
        rw [Action.pure_apply]
        dsimp only
        rw [sendReliableFrame, sendFrame_err henv]
        rfl
  | err e => rfl
  | panic => rfl

theorem deliverOrdered_isOk (f : Frame) (c : Conn) :
    (deliverOrdered f c).1.isOk = decide (f.orderChannel.toNat < 16) := by
  by_cases h : f.orderChannel.toNat < 16
  · rw [deliverOrdered_apply h, decide_eq_true h]
    rfl
  · rw [deliverOrdered_panic h, decide_eq_false h]
    rfl

theorem deliverFramePayload_isOk (p : Profile) (env : Env) (f : Frame) (c : Conn) :
    (deliverFramePayload p env f c).1.isOk =
      match f.split with
      | none => true
      | some info => (p.add 32 info.index.toNat 1).isOk := by
  cases hs : f.split with
  | none =>
    rw [deliverWhole_apply hs]
    rfl
  | some info =>
    cases hok : (p.add 32 info.index.toNat 1).isOk with
    | true =>
      rw [deliverFragment_apply hs hok]
      exact hok.symm
    | false =>
      rw [deliverFragment_panic hs hok]
      exact hok.symm

/-- **`handlerOk`** says exactly when `handle_frame` returns `Ok`. -/
theorem handleFrame_isOk (p : Profile) (env : Env) (f : Frame) (c : Conn) :
    (handleFrame p env f c).1.isOk = handlerOk p env c f := by
  have hadvance := advanceChannel_isOk f c
  rw [handleFrame_eq]
  unfold handlerOk
  cases kind c f with
  | empty | disconnect | echo => rfl
  | ping =>
    simp only [FrameKind.act, handleConnectedPing, bind_isOk, Action.lift_apply]
    cases decodeConnectedPing f.payload with
    | ok t =>
      simp only [socketSend]
      cases env.sendError <;> rfl
    | err e => rfl
    | panic => rfl
  | pong => exact handleConnectedPong_isOk p env f.payload c
  | request =>
    simp only [FrameKind.act, bind_isOk, ← hadvance]
    cases advanceChannel f c with
    | mk r c' =>
      cases r with
      | ok u => exact handleConnectionRequest_isOk env f.payload c'
      | err e => rfl
      | panic => rfl
  | incoming =>
    simp only [FrameKind.act, bind_isOk, ← hadvance]
    cases advanceChannel f c with
    | mk r c' => cases r <;> rfl
  | game =>
    simp only [FrameKind.act, handleGamePacket_eq]
    split_ifs with hord
    · exact deliverOrdered_isOk f c
    · exact deliverFramePayload_isOk p env f c

/-! ## Frames in turn -/

/-- what each handler keeps, the loop keeps, wherever it stops -/
theorem handleFrames_inv {P : Conn → Prop} {Q : Frame → Prop} (p : Profile)
    (hframe : ∀ env f c, Q f → P c → P (handleFrame p env f c).2) (envs : Nat → Env) {fs : List Frame}
    (hfs : ∀ f ∈ fs, Q f) {c : Conn} (hc : P c) : P (handleFrames p envs fs c).2 := by
  induction fs generalizing envs c with
  | nil => exact hc
  | cons f fs ih =>
    have h1 := hframe (envs 0) f c (hfs f List.mem_cons_self) hc
    unfold handleFrames
    rw [Action.bind_apply]
    cases hr : handleFrame p (envs 0) f c with
    | mk res c' =>
      rw [hr] at h1
      cases res with
      | ok u => exact ih _ (fun g hg => hfs g (List.mem_cons_of_mem _ hg)) h1
      | err e => exact h1
      | panic => exact h1

end Conn

end RakNet
