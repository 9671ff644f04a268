/-
Order indices: the sender's counter and the receiver's channel.

`next_order_index` numbers the payloads of a channel modulo 2^24; the channel counts in a `u32` and compares with `==` and
`>`. And every frame of an ordered level carries an order index, but only some branches of `handle_frame` tell the channel
about it.

- `relay_eq`: the first 2^24 payloads of a channel come out, each alone; none after them ever does.
- `nextIndex_arriveAll_iff`: a channel keeps up with the frames of its order exactly when every frame takes its slot; the
  first that does not stops the channel for good.
-/
import RakNet.Connection.Held
import RakNet.Connection.Kept
import RakNet.Connection.Panics

namespace RakNet

open Lib Lib.Wire

/-! ## Numbered payloads -/

namespace OrderedChannel

/-- payloads numbered by the sender's counter and inserted one by one, with what each insertion returns -/
def relay (channel : Fin 16) : List Bytes → SharedState → OrderedChannel → List (List Bytes)
  | [], _, _ => []
  | data :: rest, s, chan =>
    (chan.insert (s.nextOrderIndex channel).1.get data).1 ::
      relay channel rest (s.nextOrderIndex channel).2 (chan.insert (s.nextOrderIndex channel).1.get data).2

/-- the `k`-th number of a counter is `k` modulo 2^24 -/
theorem nextOrderIndex_of_load {channel : Fin 16} {s : SharedState} {k : Nat}
    (h : (s.orderIndices.get channel).load = U24.new k) :
    (s.nextOrderIndex channel).1 = U24.new k ∧
      ((s.nextOrderIndex channel).2.orderIndices.get channel).load = U24.new (k + 1) := by
  refine ⟨h, ?_⟩
  have hset : (s.nextOrderIndex channel).2.orderIndices.get channel = ((s.orderIndices.get channel).fetchAdd 1).2 :=
    get_set_self _ _ channel.2 rfl
  rw [hset]
  exact AtomicU24.load_next h

/-- past the end of the numbers nothing comes out: every number is behind the channel -/
theorem relay_of_full {channel : Fin 16} {s : SharedState} {chan : OrderedChannel} (h : 2 ^ 24 ≤ chan.nextIndex)
    (payloads : List Bytes) : relay channel payloads s chan = payloads.map fun _ => [] := by
  induction payloads generalizing s with
  | nil => rfl
  | cons data rest ih =>
    have hlt : (s.nextOrderIndex channel).1.get < chan.nextIndex := (U24.get_lt _).trans_le h
    rw [relay, insert_behind hlt, ih]
    rfl

/-- **What a channel hands out**: each of the first 2^24 payloads, by itself, and then nothing. -/
theorem relay_eq {channel : Fin 16} {s : SharedState} {chan : OrderedChannel} {k : Nat} (hk : k ≤ 2 ^ 24)
    (hs : (s.orderIndices.get channel).load = U24.new k) (hchan : Synced k chan) (payloads : List Bytes) :
    relay channel payloads s chan =
      (payloads.take (2 ^ 24 - k)).map (fun data => [data]) ++ (payloads.drop (2 ^ 24 - k)).map fun _ => [] := by
  induction payloads generalizing s chan k with
  | nil => simp [relay]
  | cons data rest ih =>
    rcases Nat.lt_or_eq_of_le hk with hlt | rfl
    · obtain ⟨hnum, hnext⟩ := nextOrderIndex_of_load hs
      obtain ⟨hout, hsync⟩ := hchan.insert hlt data
      have hget : (s.nextOrderIndex channel).1.get = k := by rw [hnum, U24.get_new_of_lt hlt]
      have hroom : 2 ^ 24 - k = (2 ^ 24 - (k + 1)) + 1 := by omega
      rw [relay, hget, hout, ih hlt hnext hsync, hroom]
      rfl
    · rw [relay_of_full hchan.next.ge]
      simp

/-- a fresh counter and a fresh channel -/
theorem relay_new (channel : Fin 16) (mtu : UInt16) (nowMicros : Nat) (payloads : List Bytes) :
    relay channel payloads (.new mtu nowMicros) .new =
      (payloads.take (2 ^ 24)).map (fun data => [data]) ++ (payloads.drop (2 ^ 24)).map fun _ => [] := by
  refine relay_eq (k := 0) (Nat.zero_le _) ?_ synced_new payloads
  simp [SharedState.new, AtomicU24.new, AtomicU24.load, and_mask24, Vector.get]

/-- how many payloads come out -/
theorem length_relay_new (channel : Fin 16) (mtu : UInt16) (nowMicros : Nat) (payloads : List Bytes) :
    (relay channel payloads (.new mtu nowMicros) .new).flatten.length = min (2 ^ 24) payloads.length := by
  have hones : ∀ l : List Bytes, (l.map fun data => [data]).flatten = l := by
    intro l
    induction l with
    | nil => rfl
    | cons data l ih => rw [List.map_cons, List.flatten_cons, ih, List.singleton_append]
  rw [relay_new, List.flatten_append, hones, List.length_append, List.length_take]
  simp

/-- **An ordered channel over a whole run.** Inserted in sending order with the numbers the sender allocates, every payload
comes out by itself if and only if there are at most 2^24 of them. -/
theorem relay_in_order_iff (channel : Fin 16) (mtu : UInt16) (nowMicros : Nat) (payloads : List Bytes) :
    relay channel payloads (.new mtu nowMicros) .new = payloads.map (fun data => [data]) ↔
      payloads.length ≤ 2 ^ 24 := by
  constructor
  · intro h
    have hlen := length_relay_new channel mtu nowMicros payloads
    rw [h, List.length_flatten, List.map_map] at hlen
    simp only [Function.comp_def, List.length_singleton, List.map_const', List.sum_replicate, smul_eq_mul, mul_one] at hlen
    omega
  · intro h
    rw [relay_new, List.take_of_length_le h, List.drop_of_length_le h, List.map_nil, List.append_nil]

/-- **The number after 2^24 - 1.** The payload that gets order index 0 again is not handed out. -/
theorem relay_wrapped_lost :
    relay 0 (List.replicate (2 ^ 24 + 1) [1]) (.new 1500 0) .new ≠
      (List.replicate (2 ^ 24 + 1) [1]).map (fun data => [data]) := by
  intro h
  have hlen := length_relay_new 0 1500 0 (List.replicate (2 ^ 24 + 1) [1])
  rw [h, List.map_replicate, List.flatten_replicate_singleton, List.length_replicate] at hlen
  omega

end OrderedChannel

/-! ## Slots -/

namespace Conn

/-- an ordered frame of a channel, with its place in the channel's order -/
structure OrderedAt (channel : Fin 16) (w : Nat) (f : Frame) : Prop where
  reliability : f.reliability = .reliableOrdered
  channel : f.orderChannel.toNat = channel
  index : ∃ i : U24, f.orderIndex = some i ∧ i.get = w

/-- the frames of a channel in the order of their indices `w`, `w + 1`, ... -/
def Numbered (channel : Fin 16) : Nat → List Frame → Prop
  | _, [] => True
  | w, f :: fs => OrderedAt channel w f ∧ Numbered channel (w + 1) fs

/-- the frame reaches its channel: a login packet while the connection is not established, or an unsplit game packet -/
def takesSlot (s : ConnectionState) (f : Frame) : Bool :=
  match kindIn s f with
  | .request | .incoming => true
  | .game => f.split.isNone
  | .empty | .ping | .pong | .disconnect | .echo => false

/-- every frame reaches its channel, in the state the frames before it leave -/
def slotsTaken : ConnectionState → List Frame → Bool
  | _, [] => true
  | s, f :: fs => takesSlot s f && slotsTaken (stateAfter s f) fs

section Slots

variable {channel : Fin 16} {w : Nat} {f : Frame} {h : Held} (hf : OrderedAt channel w f) (p : Profile) (now : Nat)
include hf

theorem OrderedAt.lt : w < 2 ^ 24 := by
  obtain ⟨i, -, rfl⟩ := hf.index
  exact i.get_lt

theorem OrderedAt.channel_lt : f.orderChannel.toNat < 16 := by
  rw [hf.channel]
  exact channel.isLt

theorem OrderedAt.isOrdered : f.reliability.isOrdered = true := by
  rw [hf.reliability]
  rfl

theorem OrderedAt.orderIndexOf_eq : orderIndexOf f = w := by
  obtain ⟨i, hi, rfl⟩ := hf.index
  rw [orderIndexOf, hi]
  rfl

theorem OrderedAt.channel_eq (hlt : f.orderChannel.toNat < 16) :
    h.channels[f.orderChannel.toNat] = h.channels.get channel := getElem_congr_idx hf.channel

/-- a login frame gives its payload to its channel if it is the next one -/
theorem OrderedAt.advanced_channel :
    (h.advanced f).channels.get channel =
      if w = (h.channels.get channel).nextIndex then ((h.channels.get channel).insert w f.payload).2
      else h.channels.get channel := by
  obtain ⟨i, hi, hw⟩ := hf.index
  unfold Held.advanced
  rw [if_pos hf.isOrdered, hi]
  dsimp only
  rw [dif_pos hf.channel_lt, hf.channel_eq hf.channel_lt, hw]
  split_ifs
  · exact get_set_self _ _ hf.channel_lt hf.channel
  · rfl

/-- an unsplit game frame always does -/
theorem OrderedAt.ordered_channel :
    (h.ordered f).channels.get channel = ((h.channels.get channel).insert w f.payload).2 := by
  unfold Held.ordered
  rw [dif_pos hf.channel_lt, hf.channel_eq hf.channel_lt, hf.orderIndexOf_eq]
  exact get_set_self _ _ hf.channel_lt hf.channel

/-- **What the channel of an ordered frame does with it.** -/
theorem OrderedAt.after_channel (s : ConnectionState) :
    (h.after p now s f).channels.get channel =
      match kindIn s f with
      | .request | .incoming =>
        if w = (h.channels.get channel).nextIndex then ((h.channels.get channel).insert w f.payload).2
        else h.channels.get channel
      | .game =>
        if f.split.isNone then ((h.channels.get channel).insert w f.payload).2 else h.channels.get channel
      | .empty | .ping | .pong | .disconnect | .echo => h.channels.get channel := by
  unfold Held.after
  cases kindIn s f with
  | request | incoming => exact hf.advanced_channel
  | game =>
    dsimp only
    unfold Held.game
    rw [hf.isOrdered, Bool.true_and]
    split_ifs with hs
    · exact hf.ordered_channel
    · cases hsplit : f.split with
      | none => exact absurd (by rw [hsplit]; rfl) hs
      | some info =>
        dsimp only
        unfold Held.fragment
        split_ifs <;> rfl
  | _ => rfl

/-- the next frame in order moves its channel by one, if it takes its slot -/
theorem OrderedAt.next {s : ConnectionState} (hsync : OrderedChannel.Synced w (h.channels.get channel))
    (ht : takesSlot s f = true) : OrderedChannel.Synced (w + 1) ((h.after p now s f).channels.get channel) := by
  have hone := (hsync.insert hf.lt f.payload).2
  rw [hf.after_channel p now s]
  unfold takesSlot at ht
  cases hk : kindIn s f with
  | request | incoming =>
    dsimp only
    rw [if_pos hsync.next.symm]
    exact hone
  | game =>
    rw [hk] at ht
    dsimp only at ht ⊢
    rw [if_pos ht]
    exact hone
  | _ =>
    rw [hk] at ht
    cases ht

/-- no channel hears of a frame that does not take its slot -/
theorem OrderedAt.missed {s : ConnectionState} (ht : takesSlot s f = false) :
    (h.after p now s f).channels.get channel = h.channels.get channel := by
  rw [hf.after_channel p now s]
  unfold takesSlot at ht
  cases hk : kindIn s f with
  | request | incoming =>
    rw [hk] at ht
    cases ht
  | game =>
    rw [hk] at ht
    dsimp only at ht ⊢
    rw [if_neg (by rw [ht]; decide)]
  | _ => rfl

/-- a channel that is behind stays where it is -/
theorem OrderedAt.stuck (s : ConnectionState) (hbehind : (h.channels.get channel).nextIndex < w) :
    ((h.after p now s f).channels.get channel).nextIndex = (h.channels.get channel).nextIndex := by
  have hahead := (OrderedChannel.insert_ahead hbehind f.payload).2
  rw [hf.after_channel p now s]
  cases kindIn s f with
  | request | incoming =>
    dsimp only
    split_ifs
    · exact hahead
    · rfl
  | game =>
    dsimp only
    split_ifs
    · exact hahead
    · rfl
  | _ => rfl

/-- a frame that takes its slot is handled without a panic -/
theorem OrderedAt.ne_panic (env : Env) {c : Conn} (ht : takesSlot c.shared.state f = true) :
    (handleFrame p env f c).1 ≠ .panic := by
  have h16 := hf.channel_lt
  rw [Ne, handleFrame_panic_iff, Bool.not_eq_false]
  unfold takesSlot at ht
  unfold frameSafe
  rw [kind_eq]
  cases hk : kindIn c.shared.state f with
  | request | incoming => simp [advanceOk, h16]
  | game =>
    rw [hk] at ht
    dsimp only at ht
    simp [gameSafe, hf.isOrdered, ht, h16]
  | _ => simp [hk] at ht

end Slots

section Arrivals

variable {channel : Fin 16} {p : Profile} {fs : List Frame} {w : Nat} {c : Conn}

/-- the frames of the rest of the order do not move a channel that is behind -/
theorem Numbered.stuck (hnum : Numbered channel w fs) (hbehind : (c.shared.orderedChannels.get channel).nextIndex < w)
    (envs : Nat → Env) :
    ((arriveAll p envs fs c).shared.orderedChannels.get channel).nextIndex =
      (c.shared.orderedChannels.get channel).nextIndex := by
  induction fs generalizing w c envs with
  | nil => rfl
  | cons f fs ih =>
    obtain ⟨hf, hrest⟩ := hnum
    have hone : ((handleFrame p (envs 0) f c).2.shared.orderedChannels.get channel).nextIndex =
        (c.shared.orderedChannels.get channel).nextIndex := by
      calc ((heldView (handleFrame p (envs 0) f c).2).channels.get channel).nextIndex
          = (((heldView c).after p (envs 0).now c.shared.state f).channels.get channel).nextIndex := by
            rw [heldView_handleFrame]
        _ = ((heldView c).channels.get channel).nextIndex := hf.stuck p (envs 0).now c.shared.state hbehind
    unfold arriveAll
    cases hr : handleFrame p (envs 0) f c with
    | mk res c' =>
      rw [hr] at hone
      have hnext := ih (c := c') hrest (by rw [hone]; omega) fun i => envs (i + 1)
      cases res with
      | ok u => exact hnext.trans hone
      | err e => exact hnext.trans hone
      | panic => exact hone

/-- a channel that waits for the first of the frames -/
theorem Numbered.arrived_iff (hnum : Numbered channel w fs)
    (hsync : OrderedChannel.Synced w (c.shared.orderedChannels.get channel)) (envs : Nat → Env) :
    ((arriveAll p envs fs c).shared.orderedChannels.get channel).nextIndex = w + fs.length ↔
      slotsTaken c.shared.state fs = true := by
  induction fs generalizing w c envs with
  | nil => exact iff_of_true hsync.next rfl
  | cons f fs ih =>
    obtain ⟨hf, hrest⟩ := hnum
    have hview : (handleFrame p (envs 0) f c).2.shared.orderedChannels.get channel =
        ((heldView c).after p (envs 0).now c.shared.state f).channels.get channel :=
      congrArg (fun h => h.channels.get channel) (heldView_handleFrame p (envs 0) f c)
    have hstate := state_handleFrame p (envs 0) f c
    unfold arriveAll slotsTaken
    cases ht : takesSlot c.shared.state f with
    | true =>
      -- the channel moves on, and the rest of the frames starts one later
      have hnp := hf.ne_panic p (envs 0) ht
      have hnext := hf.next (h := heldView c) p (envs 0).now hsync ht
      rw [← hview] at hnext
      have hlen : w + (f :: fs).length = (w + 1) + fs.length := by
        rw [List.length_cons]
        omega
      rw [← hstate, Bool.true_and, hlen]
      cases hr : handleFrame p (envs 0) f c with
      | mk res c' =>
        rw [hr] at hnext hnp
        cases res with
        | ok u => exact ih hrest hnext _
        | err e => exact ih hrest hnext _
        | panic => exact absurd rfl hnp
    | false =>
      -- the channel still waits for `w`, which no later frame carries
      have hsame : ((handleFrame p (envs 0) f c).2.shared.orderedChannels.get channel).nextIndex = w := by
        rw [← hsync.next]
        exact congrArg OrderedChannel.nextIndex (hview.trans (hf.missed p (envs 0).now ht))
      have hbehind : ((arriveAll p envs (f :: fs) c).shared.orderedChannels.get channel).nextIndex = w := by
        unfold arriveAll
        cases hr : handleFrame p (envs 0) f c with
        | mk res c' =>
          rw [hr] at hsame
          have hstuck := hrest.stuck (p := p) (c := c') (by rw [hsame]; omega) fun i => envs (i + 1)
          cases res with
          | ok u => exact hstuck.trans hsame
          | err e => exact hstuck.trans hsame
          | panic => exact hsame
      refine iff_of_false ?_ (by simp)
      unfold arriveAll at hbehind
      rw [hbehind, List.length_cons]
      omega

end Arrivals

/-- **Every ordered frame takes its slot, or the channel stops.** For every connection whose channel is fresh and every
sequence of frames of that channel in the order of their indices, the channel has counted all of them if and only if each
of them is a login packet met before the connection is established or an unsplit game packet. -/
theorem nextIndex_arriveAll_iff (p : Profile) (envs : Nat → Env) (channel : Fin 16) (fs : List Frame)
    (hnum : Numbered channel 0 fs) (c : Conn) (hfresh : c.shared.orderedChannels.get channel = .new) :
    ((arriveAll p envs fs c).shared.orderedChannels.get channel).nextIndex = fs.length ↔
      slotsTaken c.shared.state fs = true := by
  have hsync : OrderedChannel.Synced 0 (c.shared.orderedChannels.get channel) := by
    rw [hfresh]
    exact OrderedChannel.synced_new
  have h := hnum.arrived_iff (p := p) hsync envs
  rwa [Nat.zero_add] at h

/-- a login and a game packet, numbered from 0 -/
def loginThenGame : List Frame :=
  [Receiver.orderedFrame 0 [0x09], Receiver.orderedFrame 1 [0x13], Receiver.orderedFrame 2 [0xfe]]

/-- the login packets take their slots, though the first is too short to be answered -/
theorem nextIndex_login_then_game :
    slotsTaken .connecting loginThenGame = true ∧
    ((arriveAll .dev (fun _ => quietEnv) loginThenGame (.new 1500 0 true)).shared.orderedChannels.get 0).nextIndex = 3 := by
  refine ⟨by decide, ?_⟩
  refine (nextIndex_arriveAll_iff .dev (fun _ => quietEnv) 0 loginThenGame ?_ (.new 1500 0 true) rfl).2 (by decide)
  exact ⟨⟨rfl, rfl, _, rfl, rfl⟩, ⟨rfl, rfl, _, rfl, rfl⟩, ⟨rfl, rfl, _, rfl, rfl⟩, trivial⟩

/-- the answer to a connection request and a game packet after it, numbered from 0 -/
def acceptedThenGame : List Frame := [Receiver.orderedFrame 0 [0x10], Receiver.orderedFrame 1 [0xfe]]

/-- **An order slot that is never taken.** The peer's `ConnectionRequestAccepted` carries order index 0; the connection
ignores it without telling the channel, which then waits for index 0 and keeps the game packet back. -/
theorem accepted_blocks_channel :
    Numbered 0 0 acceptedThenGame ∧ (new 1500 0 true).shared.orderedChannels.get 0 = .new ∧
    ((arriveAll .dev (fun _ => quietEnv) acceptedThenGame (.new 1500 0 true)).shared.orderedChannels.get 0).nextIndex = 0 ∧
    acceptedThenGame.length = 2 ∧
    (arriveAll .dev (fun _ => quietEnv) acceptedThenGame (.new 1500 0 true)).appData = [] := by
  refine ⟨⟨⟨rfl, rfl, _, rfl, rfl⟩, ⟨rfl, rfl, _, rfl, rfl⟩, trivial⟩, rfl, ?_⟩
  decide

end Conn

end RakNet
