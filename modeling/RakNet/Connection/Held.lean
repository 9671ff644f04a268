/-
What a frame does to what a receiver holds: the payloads it has delivered, its channels and its fragments.

- `heldView_handleFrame`: with the connection state, the frame and the clock, `handle_frame` is a function on `Held`.
  Whatever else the handler does (answer, measure, change the state) does not reach it.
- `Held.appData_after_iff`: exactly which frames deliver nothing.
-/
import RakNet.Connection.Lifecycle

namespace RakNet

open Lib Lib.Wire

namespace Conn

open Action

namespace Held

/-- an unsplit ordered frame goes through its channel, and what becomes ready is delivered -/
def ordered (h : Held) (f : Frame) : Held :=
  if h16 : f.orderChannel.toNat < 16 then
    { h with
      appData := h.appData ++ (h.channels[f.orderChannel.toNat].insert (orderIndexOf f) f.payload).1
      channels := h.channels.set f.orderChannel.toNat
        (h.channels[f.orderChannel.toNat].insert (orderIndexOf f) f.payload).2 }
  else h

/-- a login frame with the expected order index moves its channel; what the channel hands out is dropped -/
def advanced (h : Held) (f : Frame) : Held :=
  if f.reliability.isOrdered then
    match f.orderIndex with
    | none => h
    | some orderIdx =>
      if h16 : f.orderChannel.toNat < 16 then
        if orderIdx.get = h.channels[f.orderChannel.toNat].nextIndex then
          { h with
            channels := h.channels.set f.orderChannel.toNat
              (h.channels[f.orderChannel.toNat].insert orderIdx.get f.payload).2 }
        else h
      else h
  else h

/-- a fragment goes to the fragment queue, and what it completes is delivered -/
def fragment (p : Profile) (now : Nat) (h : Held) (f : Frame) (info : SplitInfo) : Held :=
  if (p.add 32 info.index.toNat 1).isOk then
    { h with
      appData := h.appData ++
        (h.fragments.insert now info.id.toNat info.index.toNat info.count.toNat f.payload).1.toList
      fragments := (h.fragments.insert now info.id.toNat info.index.toNat info.count.toNat f.payload).2 }
  else h

/-- a game frame -/
def game (p : Profile) (now : Nat) (h : Held) (f : Frame) : Held :=
  if f.reliability.isOrdered && f.split.isNone then h.ordered f
  else match f.split with
    | none => { h with appData := h.appData ++ [f.payload] }
    | some info => h.fragment p now f info

/-- what is held after a frame -/
def after (p : Profile) (now : Nat) (s : ConnectionState) (h : Held) (f : Frame) : Held :=
  match kindIn s f with
  | .request | .incoming => h.advanced f
  | .game => h.game p now f
  | .empty | .ping | .pong | .disconnect | .echo => h

end Held

theorem heldView_advanceChannel (f : Frame) (c : Conn) :
    heldView (advanceChannel f c).2 = (heldView c).advanced f := by
  unfold advanceChannel Held.advanced
  cases f.reliability.isOrdered with
  | false => rfl
  | true =>
    rw [if_pos rfl, if_pos rfl]
    cases f.orderIndex with
    | none => rfl
    | some i =>
      dsimp only
      by_cases h : f.orderChannel.toNat < 16
      · rw [onChannel_of_lt h, dif_pos h]
        dsimp only [heldView, SharedState.setChannel]
        by_cases hi : i.get = c.shared.orderedChannels[f.orderChannel.toNat].nextIndex
        · rw [if_pos hi]
          exact (if_pos hi).symm
        · rw [if_neg hi]
          dsimp only
          rw [Vector.set_getElem_self]
          exact (if_neg hi).symm
      · rw [onChannel_of_not_lt h, dif_neg h]

theorem heldView_handleGamePacket (p : Profile) (env : Env) (f : Frame) (c : Conn) :
    heldView (handleGamePacket p env f c).2 = (heldView c).game p env.now f := by
  rw [handleGamePacket_eq]
  unfold Held.game
  split_ifs with hord
  · unfold Held.ordered
    by_cases h : f.orderChannel.toNat < 16
    · rw [deliverOrdered_apply h, dif_pos h]
      rfl
    · rw [deliverOrdered_panic h, dif_neg h]
  · cases hs : f.split with
    | none =>
      rw [deliverWhole_apply hs]
      rfl
    | some info =>
      unfold Held.fragment
      cases hok : (p.add 32 info.index.toNat 1).isOk with
      | true =>
        rw [deliverFragment_apply hs hok]
        dsimp only
        rw [if_pos hok]
        rfl
      | false =>
        rw [deliverFragment_panic hs hok]
        dsimp only
        rw [if_neg (by rw [hok]; decide)]

/-- **What is held after a frame.** -/
theorem heldView_handleFrame (p : Profile) (env : Env) (f : Frame) (c : Conn) :
    heldView (handleFrame p env f c).2 = (heldView c).after p env.now c.shared.state f := by
  rw [handleFrame_eq, kind_eq]
  unfold Held.after
  cases kindIn c.shared.state f with
  | empty | disconnect | echo => rfl
  | ping => exact preserves_heldView (preserves_handleConnectedPing env f.payload) c
  | pong => exact preserves_heldView (preserves_handleConnectedPong p env f.payload) c
  | game => exact heldView_handleGamePacket p env f c
  | request =>
    rw [← heldView_advanceChannel f c]
    exact component_bind (fun _ => preserves_heldView (preserves_handleConnectionRequest env f.payload)) c
  | incoming =>
    rw [← heldView_advanceChannel f c]
    exact component_bind (fun _ => heldView_markReady) c


/-! ## Frames that deliver -/

namespace Held

/-- the frame is one that makes a payload ready: an unsplit frame whose turn it is or that needs none, or the last fragment
of a message -/
def releases (p : Profile) (s : ConnectionState) (h : Held) (f : Frame) : Bool :=
  match kindIn s f with
  | .game =>
    if f.reliability.isOrdered && f.split.isNone then
      if h16 : f.orderChannel.toNat < 16 then orderIndexOf f == h.channels[f.orderChannel.toNat].nextIndex else false
    else match f.split with
      | none => true
      | some info =>
        (p.add 32 info.index.toNat 1).isOk && h.fragments.completes info.id.toNat info.index.toNat info.count.toNat
  | .empty | .ping | .pong | .disconnect | .request | .incoming | .echo => false

theorem appData_advanced (h : Held) (f : Frame) : (h.advanced f).appData = h.appData := by
  unfold advanced
  cases f.orderIndex with
  | none => split_ifs <;> rfl
  | some i =>
    dsimp only
    split_ifs <;> rfl

theorem appData_ordered_iff (h : Held) (f : Frame) (h16 : f.orderChannel.toNat < 16) :
    (h.ordered f).appData = h.appData ↔ orderIndexOf f ≠ h.channels[f.orderChannel.toNat].nextIndex := by
  unfold ordered
  rw [dif_pos h16]
  dsimp only
  rw [List.append_right_eq_self]
  rcases h.channels[f.orderChannel.toNat].insert_cases (orderIndexOf f) f.payload with ⟨hi, he⟩ | ⟨hi, -, he⟩ |
      ⟨hi, -, he⟩ | ⟨hi, he⟩
  · rw [he]
    exact iff_of_false (List.cons_ne_nil _ _) (by simpa using hi)
  all_goals
    rw [he]
    exact iff_of_true rfl (by omega)

/-- **Which frames deliver nothing.** -/
theorem appData_after_iff (p : Profile) (now : Nat) (s : ConnectionState) (h : Held) (f : Frame) :
    (h.after p now s f).appData = h.appData ↔ h.releases p s f = false := by
  unfold after releases
  cases kindIn s f with
  | request | incoming => exact iff_of_true (appData_advanced h f) rfl
  | game =>
    dsimp only
    unfold game
    split_ifs with hord h16
    · simpa using appData_ordered_iff h f h16
    · unfold ordered
      rw [dif_neg h16]
      exact iff_of_true rfl rfl
    · cases hs : f.split with
      | none => simp
      | some info =>
        dsimp only
        unfold fragment
        rw [← FragmentQueue.insert_isSome h.fragments now _ _ _ f.payload]
        cases (p.add 32 info.index.toNat 1).isOk with
        | false => simp
        | true =>
          cases (h.fragments.insert now info.id.toNat info.index.toNat info.count.toNat f.payload).1 with
          | none => simp
          | some data => simp
  | _ => exact iff_of_true rfl rfl

end Held

end Conn

end RakNet
