/-
The connection state along the frames a connection handles.

A frame changes the state in two ways only: a disconnect notification ends the connection, whatever its state, and a
`NewIncomingConnection` (looked at only while the connection is not established) tries the transition from `Connecting`
to `Connected`.

- `state_handleFrame`: the state a frame leaves.
- `arriveAll`: frames that arrive in datagrams of their own, one after another.
-/
import RakNet.Connection.Frames

namespace RakNet

open Lib Lib.Wire

namespace ConnectionState

/-- `can_receive` -/
def canReceive : ConnectionState → Bool
  | connecting | connected => true
  | disconnecting | disconnected => false

/-- the only transition `mark_connected` makes -/
theorem transition_connected (s : ConnectionState) :
    (s.transition .connecting .connected).2 = if s = .connecting then .connected else s := by
  cases s <;> rfl

end ConnectionState

namespace Conn

open Action

/-! ## The state after a frame -/

/-- the branch a frame takes in a connection state -/
def kindIn (s : ConnectionState) (frame : Frame) : FrameKind :=
  match frame.payload with
  | [] => .empty
  | packetId :: _ =>
    if packetId = idConnectedPing then .ping
    else if packetId = idConnectedPong then .pong
    else if packetId = idDisconnectNotification then .disconnect
    else if !(s == .connected) && packetId == idConnectionRequest then .request
    else if !(s == .connected) && packetId == idNewIncomingConnection then .incoming
    else if !(s == .connected) && packetId == idConnectionRequestAccepted then .echo
    else .game

theorem kind_eq (c : Conn) (frame : Frame) : kind c frame = kindIn c.shared.state frame := rfl

/-- the state a frame leaves; a login frame whose channel does not exist panics before it changes anything -/
def stateAfter (s : ConnectionState) (f : Frame) : ConnectionState :=
  match kindIn s f with
  | .disconnect => .disconnected
  | .incoming => if advanceOk f then (s.transition .connecting .connected).2 else s
  | _ => s

theorem state_advanceChannel (f : Frame) : Preserves (·.shared.state) (advanceChannel f) :=
  (preserves_advanceChannel f).comp (·.shared.state)

/-- **The state after a frame.** -/
theorem state_handleFrame (p : Profile) (env : Env) (f : Frame) (c : Conn) :
    (handleFrame p env f c).2.shared.state = stateAfter c.shared.state f := by
  rw [handleFrame_eq, stateAfter, ← kind_eq]
  cases kind c f with
  | empty | disconnect | echo => rfl
  | ping => exact preserves_state (preserves_handleConnectedPing env f.payload) c
  | pong => exact preserves_state (preserves_handleConnectedPong p env f.payload) c
  | request =>
    exact ((state_advanceChannel f).bind fun _ => preserves_state (preserves_handleConnectionRequest env f.payload)) c
  | game => exact (preserves_handleGamePacket p env f).comp (·.shared.state) c
  | incoming =>
    -- the transition comes after the channel, and only if the channel exists
    have hstate : (advanceChannel f c).2.shared.state = c.shared.state := state_advanceChannel f c
    have hok := advanceChannel_isOk f c
    simp only [FrameKind.act, bind_apply]
    cases hr : advanceChannel f c with
    | mk r c' =>
      rw [hr] at hstate hok
      cases r with
      | ok u =>
        rw [← hok]
        show (markReady c').2.shared.state = (c.shared.state.transition .connecting .connected).2
        rw [← hstate, markReady, modifyShared, modify_bind, modify_apply]
        dsimp only
        split_ifs <;> rfl
      | err e =>
        rw [← hok]
        exact hstate
      | panic =>
        rw [← hok]
        exact hstate

/-- a frame never leads from a state that cannot receive to one that can -/
theorem canReceive_stateAfter {s : ConnectionState} (h : s.canReceive = false) (f : Frame) :
    (stateAfter s f).canReceive = false := by
  unfold stateAfter
  cases kindIn s f with
  | disconnect => rfl
  | incoming =>
    dsimp only
    rw [ConnectionState.transition_connected]
    split_ifs with h1 h2
    · rw [h2] at h
      cases h
    · exact h
    · exact h
  | _ => exact h

/-! ## Frames in datagrams of their own -/

/-- frames that arrive one after another, each in a datagram of its own: an error ends the handling of its frame only, a
panic the receive task -/
def arriveAll (p : Profile) : (Nat → Env) → List Frame → Conn → Conn
  | _, [], c => c
  | envs, f :: rest, c =>
    match handleFrame p (envs 0) f c with
    | (.panic, c') => c'
    | (_, c') => arriveAll p (fun i => envs (i + 1)) rest c'

/-- what each handler keeps, the arrivals keep -/
theorem arriveAll_inv {P : Conn → Prop} {Q : Frame → Prop} (p : Profile)
    (hframe : ∀ env f c, Q f → P c → P (handleFrame p env f c).2) (envs : Nat → Env) {fs : List Frame}
    (hfs : ∀ f ∈ fs, Q f) {c : Conn} (hc : P c) : P (arriveAll p envs fs c) := by
  induction fs generalizing envs c with
  | nil => exact hc
  | cons f fs ih =>
    have h1 := hframe (envs 0) f c (hfs f List.mem_cons_self) hc
    have hrest := fun g hg => hfs g (List.mem_cons_of_mem _ hg)
    unfold arriveAll
    cases hr : handleFrame p (envs 0) f c with
    | mk res c' =>
      rw [hr] at h1
      cases res with
      | ok u => exact ih _ hrest h1
      | err e => exact ih _ hrest h1
      | panic => exact h1

end Conn

end RakNet
