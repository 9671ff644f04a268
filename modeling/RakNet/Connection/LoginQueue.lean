/-
Login packets and the queue of their channel.

While a connection is being established, game packets that come out of order wait in their channel like any others. A
login packet whose turn it is goes into the same channel, and `handle_frame` throws away what `insert` returns: the login
packet, and every queued game packet whose turn comes with it.

- `removed_insert_iff`: when an insertion hands out whatever leaves the queue.
- `resting_run`: in every reachable state no channel has the packet it waits for.
- `released_iff`: a frame takes a payload out of a queue without delivering it exactly when it is a login packet whose
  successor is queued, or a game packet that replaces another one.
- `login_drops_queue`: a game packet, acknowledged and queued during the login, that is never delivered.
-/
import RakNet.Connection.Kept
import RakNet.Connection.Session

namespace RakNet

open Lib Lib.Wire

namespace OrderedChannel

/-- an insertion at this index queues nothing over another payload -/
def replacesNothing (chan : OrderedChannel) (index : Nat) (payload : Bytes) : Bool :=
  decide (index ≤ chan.nextIndex) || decide (chan.maxQueueSize ≤ chan.queue.size) || chan.queue[index]? == none ||
    chan.queue[index]? == some payload

theorem removed_self (chan : OrderedChannel) : removed chan chan = [] :=
  (removed_eq_nil_iff chan chan).2 fun _ _ hk => hk

/-- the packet that is waited for takes the run of its successors with it -/
theorem Resting.removed_next {chan : OrderedChannel} (h : chan.Resting) (hlt : chan.nextIndex < 2 ^ 24) (payload : Bytes) :
    removed chan (chan.insert chan.nextIndex payload).2 = chan.advance.drain.1 ∧
      (chan.insert chan.nextIndex payload).1 = payload :: chan.advance.drain.1 := by
  have hinsert : chan.insert chan.nextIndex payload = (payload :: chan.advance.drain.1, chan.advance.drain.2) := if_pos rfl
  have hremoved := (h.drained hlt).removed (h.bounded.past hlt h.idle)
  rw [hinsert]
  exact ⟨hremoved, rfl⟩

/-- a later packet takes out what it replaces -/
theorem removed_queued_iff {chan : OrderedChannel} {i : Nat} {payload : Bytes} :
    removed chan { chan with queue := chan.queue.insert i payload } = [] ↔
      chan.queue[i]? = none ∨ chan.queue[i]? = some payload := by
  rw [removed_eq_nil_iff]
  constructor
  · intro h
    cases hq : chan.queue[i]? with
    | none => exact Or.inl rfl
    | some d =>
      have hkept := h i d hq
      rw [NatMap.get?_insert, if_pos rfl] at hkept
      exact Or.inr hkept.symm
  · intro h k d hk
    dsimp only
    rw [NatMap.get?_insert]
    split_ifs with hik
    · subst hik
      rcases h with hnone | hsame
      · rw [hnone] at hk
        cases hk
      · exact hsame.symm.trans hk
    · exact hk

/-- **An insertion hands out what leaves the queue**, in order, unless it replaces a queued payload. -/
theorem Resting.removed_insert_iff {chan : OrderedChannel} (h : chan.Resting) {i : Nat} (hi : i < 2 ^ 24) (payload : Bytes) :
    (removed chan (chan.insert i payload).2).Sublist (chan.insert i payload).1 ↔
      chan.replacesNothing i payload = true := by
  unfold replacesNothing
  rcases chan.insert_cases i payload with ⟨rfl, -⟩ | ⟨hlt, hroom, he⟩ | ⟨-, hfull, he⟩ | ⟨hlt, he⟩
  · obtain ⟨hout, hready⟩ := h.removed_next hi payload
    rw [hout, hready]
    exact iff_of_true (List.sublist_cons_self _ _) (by simp)
  · rw [he, List.sublist_nil, removed_queued_iff]
    simp only [Bool.or_eq_true, decide_eq_true_eq, beq_iff_eq]
    constructor
    · rintro (hnone | hsame)
      · exact Or.inl (Or.inr hnone)
      · exact Or.inr hsame
    · rintro ((hold | hnone) | hsame)
      · omega
      · exact Or.inl hnone
      · exact Or.inr hsame
  · rw [he, removed_self]
    exact iff_of_true (List.nil_sublist _) (by simp [hfull])
  · rw [he, removed_self]
    exact iff_of_true (List.nil_sublist _) (by simp [le_of_lt hlt])

end OrderedChannel

namespace Conn

open Action

/-! ## One frame -/

namespace Held

/-- whatever has left a channel's queue since was sent to the application, in order -/
def Released (before after : Held) : Prop :=
  ∃ sent, after.appData = before.appData ++ sent ∧
    ∀ channel : Fin 16, (OrderedChannel.removed (before.channels.get channel) (after.channels.get channel)).Sublist sent

theorem released_of_channels {before after : Held} {sent : List Bytes} (hdata : after.appData = before.appData ++ sent)
    (hchannels : after.channels = before.channels) : Released before after := by
  refine ⟨sent, hdata, ?_⟩
  intro channel
  rw [hchannels, OrderedChannel.removed_self]
  exact List.nil_sublist _

/-- one channel is replaced -/
theorem released_set_iff {before : Held} {sent : List Bytes} {k : Nat} (h16 : k < 16) (chan : OrderedChannel)
    (fragments : FragmentQueue) :
    Released before ⟨before.appData ++ sent, before.channels.set k chan, fragments⟩ ↔
      (OrderedChannel.removed before.channels[k] chan).Sublist sent := by
  constructor
  · rintro ⟨sent', hdata, hall⟩
    rw [List.append_cancel_left hdata]
    have hk := hall ⟨k, h16⟩
    rwa [get_set_self _ _ h16 rfl] at hk
  · intro hsub
    refine ⟨sent, rfl, ?_⟩
    intro channel
    by_cases hk : k = channel
    · subst hk
      rw [get_set_self _ _ h16 rfl]
      exact hsub
    · rw [get_set_ne _ _ h16 hk, OrderedChannel.removed_self]
      exact List.nil_sublist _

end Held

/-- the frame discards nothing that is queued: a login frame whose turn it is finds that its successor is not queued, and a
game frame replaces nothing -/
def sparesQueue (c : Conn) (f : Frame) : Bool :=
  match kind c f with
  | .request | .incoming => advanceTakes c f
  | .game =>
    !(f.reliability.isOrdered && f.split.isNone) ||
      match c.shared.orderedChannels[f.orderChannel.toNat]? with
      | none => true
      | some chan => chan.replacesNothing (orderIndexOf f) f.payload
  | .empty | .ping | .pong | .disconnect | .echo => true

/-- the channels of a connection, each at rest -/
def Rested (channels : Vector OrderedChannel 16) : Prop := ∀ channel : Fin 16, (channels.get channel).Resting

theorem released_advanced_iff {c : Conn} (hrest : Rested c.shared.orderedChannels) (f : Frame) :
    Held.Released (heldView c) ((heldView c).advanced f) ↔ advanceTakes c f = true := by
  have hsame : Held.Released (heldView c) (heldView c) := Held.released_of_channels (List.append_nil _).symm rfl
  have hchannels : (heldView c).channels = c.shared.orderedChannels := rfl
  unfold Held.advanced advanceTakes
  cases f.reliability.isOrdered with
  | false => exact iff_of_true hsame rfl
  | true =>
    rw [if_pos rfl]
    cases f.orderIndex with
    | none => exact iff_of_true hsame rfl
    | some i =>
      dsimp only
      by_cases h16 : f.orderChannel.toNat < 16
      · rw [dif_pos h16, channel?_of_lt h16, hchannels]
        dsimp only
        by_cases hi : i.get = c.shared.orderedChannels[f.orderChannel.toNat].nextIndex
        · have hchan : (c.shared.orderedChannels[f.orderChannel.toNat]).Resting := hrest ⟨f.orderChannel.toNat, h16⟩
          have hlt : c.shared.orderedChannels[f.orderChannel.toNat].nextIndex < 2 ^ 24 := by
            rw [← hi]
            exact i.get_lt
          have hset := @Held.released_set_iff (heldView c) [] _ h16
            (c.shared.orderedChannels[f.orderChannel.toNat].insert i.get f.payload).2 (heldView c).fragments
          have hout := (hchan.removed_next hlt f.payload).1
          rw [← hi] at hout
          rw [List.append_nil, hchannels] at hset
          rw [if_pos hi, hset, hout, List.sublist_nil, OrderedChannel.drain_eq_nil_iff]
          simp [hi]
        · rw [if_neg hi]
          exact iff_of_true hsame (by simp [hi])
      · rw [dif_neg h16, Vector.getElem?_eq_none (Nat.not_lt.1 h16)]
        exact iff_of_true hsame (by simp)

/-- a game frame that does not go through a channel leaves all of them alone -/
theorem released_unordered (p : Profile) (now : Nat) (h : Held) {f : Frame}
    (hord : (f.reliability.isOrdered && f.split.isNone) = false) : Held.Released h (h.game p now f) := by
  unfold Held.game
  rw [if_neg (by rw [hord]; decide)]
  cases f.split with
  | none => exact Held.released_of_channels rfl rfl
  | some info =>
    dsimp only
    unfold Held.fragment
    split_ifs
    · exact Held.released_of_channels rfl rfl
    · exact Held.released_of_channels (List.append_nil _).symm rfl

theorem released_ordered_iff {c : Conn} (hrest : Rested c.shared.orderedChannels) (f : Frame) :
    Held.Released (heldView c) ((heldView c).ordered f) ↔
      (match c.shared.orderedChannels[f.orderChannel.toNat]? with
        | none => true
        | some chan => chan.replacesNothing (orderIndexOf f) f.payload) = true := by
  unfold Held.ordered
  by_cases h16 : f.orderChannel.toNat < 16
  · have hchan : (c.shared.orderedChannels[f.orderChannel.toNat]).Resting := hrest ⟨f.orderChannel.toNat, h16⟩
    rw [dif_pos h16, channel?_of_lt h16, Held.released_set_iff]
    exact hchan.removed_insert_iff (U24.get_lt _) f.payload
  · rw [dif_neg h16, Vector.getElem?_eq_none (Nat.not_lt.1 h16)]
    exact iff_of_true (Held.released_of_channels (List.append_nil _).symm rfl) rfl

/-- **What a frame takes out of the queues**, in a state whose channels are at rest. -/
theorem released_handleFrame_iff (p : Profile) (env : Env) (f : Frame) {c : Conn}
    (hrest : Rested c.shared.orderedChannels) :
    Held.Released (heldView c) (heldView (handleFrame p env f c).2) ↔ sparesQueue c f = true := by
  have hsame : Held.Released (heldView c) (heldView c) := Held.released_of_channels (List.append_nil _).symm rfl
  rw [heldView_handleFrame]
  unfold Held.after sparesQueue
  rw [kind_eq]
  cases kindIn c.shared.state f with
  | request | incoming => exact released_advanced_iff hrest f
  | game =>
    dsimp only
    cases hord : f.reliability.isOrdered && f.split.isNone with
    | false => exact iff_of_true (released_unordered p env.now _ hord) rfl
    | true =>
      unfold Held.game
      rw [if_pos hord]
      exact released_ordered_iff hrest f
  | _ => exact iff_of_true hsame rfl

/-! ## Channels at rest -/

theorem Rested.set {channels : Vector OrderedChannel 16} (h : Rested channels) {k : Nat} (h16 : k < 16) {i : Nat}
    (hi : i < 2 ^ 24) (data : Bytes) : Rested (channels.set k (channels[k].insert i data).2) := by
  intro channel
  by_cases hk : k = channel
  · subst hk
    rw [get_set_self _ _ h16 rfl]
    exact (h channel).insert hi data
  · rw [get_set_ne _ _ h16 hk]
    exact h channel

theorem Rested.after {h : Held} (hrest : Rested h.channels) (p : Profile) (now : Nat) (s : ConnectionState) (f : Frame) :
    Rested (h.after p now s f).channels := by
  have hadvanced : Rested (h.advanced f).channels := by
    unfold Held.advanced
    cases f.orderIndex with
    | none =>
      dsimp only
      split_ifs <;> exact hrest
    | some i =>
      dsimp only
      split_ifs with hord h16
      · exact hrest.set h16 i.get_lt f.payload
      all_goals exact hrest
  have hgame : Rested (h.game p now f).channels := by
    unfold Held.game Held.ordered Held.fragment
    split_ifs with hord h16
    · exact hrest.set h16 (U24.get_lt _) f.payload
    · exact hrest
    · cases f.split with
      | none => exact hrest
      | some info =>
        dsimp only
        split_ifs <;> exact hrest
  unfold Held.after
  cases kindIn s f with
  | request | incoming => exact hadvanced
  | game => exact hgame
  | _ => exact hrest

end Conn

namespace Session

open Conn

theorem resting_step {p : Profile} {s : Session} (h : Rested s.conn.shared.orderedChannels) (op : Op) :
    Rested (step p s op).conn.shared.orderedChannels := by
  cases hf : frameOf p s op with
  | none =>
    have hsame : (step p s op).conn.shared.orderedChannels = s.conn.shared.orderedChannels :=
      congrArg Prod.snd (frameView_step_no_frame hf)
    rw [hsame]
    exact h
  | some f =>
    obtain ⟨env, -, -, hheld⟩ := step_frame hf
    have hchannels := congrArg Held.channels hheld
    have hafter := Rested.after (h := heldView s.conn) h p env.now s.conn.shared.state f
    rw [← hchannels] at hafter
    exact hafter

/-- **No channel of a reachable state has the packet it waits for.** -/
theorem resting_run (p : Profile) (mtu : UInt16) (nowMicros : Nat) (ready : Bool) (ops : List Op) :
    Rested (run p (init mtu nowMicros ready) ops).conn.shared.orderedChannels := by
  have hinit : Rested (init mtu nowMicros ready).conn.shared.orderedChannels := by
    intro channel
    have hnew : (init mtu nowMicros ready).conn.shared.orderedChannels.get channel = .new := Vector.getElem_replicate _
    rw [hnew]
    exact OrderedChannel.resting_new
  exact @Machine.run_inv Session Op (step p) (fun s => Rested s.conn.shared.orderedChannels)
    (fun _ op hs => resting_step hs op) _ hinit ops

/-- **Queued payloads that leave their queue are delivered**, in any reachable state and for any frame, if and only if the
frame is not a login packet that advances its channel over a queued payload, nor a game packet queued in the place of
another. -/
theorem released_iff (p : Profile) (mtu : UInt16) (nowMicros : Nat) (ready : Bool) (ops : List Op) (env : Env) (f : Frame) :
    Held.Released (heldView (run p (init mtu nowMicros ready) ops).conn)
        (heldView (handleFrame p env f (run p (init mtu nowMicros ready) ops).conn).2) ↔
      sparesQueue (run p (init mtu nowMicros ready) ops).conn f = true :=
  released_handleFrame_iff p env f (resting_run p mtu nowMicros ready ops)

/-- the second packet of a login overtakes the first: an ordered game packet with index 1, in a datagram whose number is
read as an empty frame in front of it -/
def overtaken : List Op :=
  [.check, .recv quietEnv (encodeDatagram (U24.new 0) [(Receiver.orderedFrame 1 [0xfe]).encode]), .frame quietEnv,
    .frame quietEnv]

/-- **A queued game packet is thrown away.** It waits for index 0, which a `NewIncomingConnection` takes: the channel goes
past both, and the application gets neither. -/
theorem login_drops_queue :
    ((run .dev (init 1500 0 true) overtaken).conn.shared.orderedChannels.get 0).queue[1]? = some [0xfe] ∧
    ((handleFrame .dev quietEnv (Receiver.orderedFrame 0 [idNewIncomingConnection])
      (run .dev (init 1500 0 true) overtaken).conn).2.shared.orderedChannels.get 0).nextIndex = 2 ∧
    (handleFrame .dev quietEnv (Receiver.orderedFrame 0 [idNewIncomingConnection])
      (run .dev (init 1500 0 true) overtaken).conn).2.appData = [] ∧
    ¬ Held.Released (heldView (run .dev (init 1500 0 true) overtaken).conn)
      (heldView (handleFrame .dev quietEnv (Receiver.orderedFrame 0 [idNewIncomingConnection])
        (run .dev (init 1500 0 true) overtaken).conn).2) := by
  refine ⟨by decide +kernel, by decide +kernel, by decide +kernel, ?_⟩
  have hspares : sparesQueue (run .dev (init 1500 0 true) overtaken).conn
      (Receiver.orderedFrame 0 [idNewIncomingConnection]) = false := by decide +kernel
  intro hreleased
  have htrue := (released_handleFrame_iff .dev quietEnv _ (resting_run .dev 1500 0 true overtaken)).1 hreleased
  rw [hspares] at htrue
  cases htrue

end Session

end RakNet
