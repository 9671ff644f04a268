/-
Two streams and what is between them: a network that may lose, duplicate, delay and reorder frames, but makes up none.

- `OrderedChannel.Queues`, `Stream.PieceOf`: what a receiver holds comes from the messages of the sender, piece by piece.
- `reassembled`: a complete set of fragments is one of the messages, while no split id is used twice.
- `recv_genuine`: whatever both ends and the network do, `recv` hands out nothing that `send` did not accept at the other
  end.
-/
import RakNet.Connection.Fits
import RakNet.Stream.Handle
import RakNet.Stream.Resources

namespace RakNet

open Lib Lib.Wire

namespace OrderedChannel

/-! ## The payloads of a channel -/

/-- every queued payload has the property -/
def Queues (P : Bytes → Prop) (c : OrderedChannel) : Prop := ∀ (k : Nat) d, c.queue[k]? = some d → P d

variable {P : Bytes → Prop}

theorem queues_new : new.Queues P := by
  intro k d hk
  rw [new, NatMap.get?_empty] at hk
  cases hk

/-- what the loop hands out was queued -/
theorem Queues.drainLoop {c : OrderedChannel} (h : c.Queues P) (n : Nat) :
    (∀ d ∈ (drainLoop n c).1, P d) ∧ (drainLoop n c).2.Queues P := by
  induction n generalizing c with
  | zero => exact ⟨fun _ hd => absurd hd List.not_mem_nil, h⟩
  | succ n ih =>
    unfold OrderedChannel.drainLoop
    cases hnext : c.queue[c.nextIndex]? with
    | none => exact ⟨fun _ hd => absurd hd List.not_mem_nil, h⟩
    | some data =>
      have hrest : (OrderedChannel.advance { c with queue := c.queue.erase c.nextIndex }).Queues P := by
        intro k d hk
        have hk' : (c.queue.erase c.nextIndex)[k]? = some d := hk
        rw [NatMap.get?_erase] at hk'
        split_ifs at hk'
        exact h k d hk'
      obtain ⟨hready, hqueue⟩ := ih hrest
      refine ⟨?_, hqueue⟩
      intro d hd
      rcases List.mem_cons.1 hd with rfl | hd
      · exact h c.nextIndex d hnext
      · exact hready d hd

/-- a payload with the property goes in, and such payloads come out -/
theorem Queues.insert {c : OrderedChannel} (h : c.Queues P) (i : Nat) {data : Bytes} (hd : P data) :
    (∀ d ∈ (c.insert i data).1, P d) ∧ (c.insert i data).2.Queues P := by
  have hadvance : c.advance.Queues P := h
  rcases c.insert_cases i data with ⟨-, he⟩ | ⟨-, -, he⟩ | ⟨-, -, he⟩ | ⟨-, he⟩ <;> rw [he]
  · obtain ⟨hready, hqueue⟩ := hadvance.drainLoop c.advance.queue.size
    exact ⟨List.forall_mem_cons.2 ⟨hd, hready⟩, hqueue⟩
  · exact ⟨fun _ hmem => absurd hmem List.not_mem_nil, NatMap.forall_insert hd h⟩
  · exact ⟨fun _ hmem => absurd hmem List.not_mem_nil, h⟩
  · exact ⟨fun _ hmem => absurd hmem List.not_mem_nil, h⟩

/-- the payload a channel waits for is never queued -/
theorem Queues.insert_next {c : OrderedChannel} (h : c.Queues P) (data : Bytes) :
    (c.insert c.nextIndex data).2.Queues P := by
  have hadvance : c.advance.Queues P := h
  rw [OrderedChannel.insert, if_pos rfl]
  exact (hadvance.drainLoop c.advance.queue.size).2

end OrderedChannel

namespace Stream

open Conn Action

/-! ## The pieces of the messages -/

/-- the messages that are sent in fragments -/
def fragmented (mtu : Nat) (msgs : List Bytes) : List Bytes := msgs.filter fun data => !isWhole mtu data.length

/-- a fragment of the message that has this split id -/
def PieceOf (mtu : Nat) (msgs : List Bytes) (id count k : Nat) (d : Bytes) : Prop :=
  ∃ data, (fragmented mtu msgs)[id]? = some data ∧ chunkCount data.length (mtu - 80) = count ∧
    (chunks data (mtu - 80))[k]? = some d

/-- a piece is a whole message, or one of the chunks of the message with its split id -/
theorem mem_allParts {mtu : Nat} {id : UInt16} {msgs : List Bytes} {x : Bytes × Option SplitInfo}
    (h : x ∈ allParts mtu id msgs) :
    (x.2 = none ∧ x.1 ∈ msgs) ∨ ∃ j data, (fragmented mtu msgs)[j]? = some data ∧
      x ∈ headed (id + UInt16.ofNat j) (UInt32.ofNat (chunkCount data.length (mtu - 80))) 0 (chunks data (mtu - 80)) := by
  induction msgs generalizing id with
  | nil => cases h
  | cons data rest ih =>
    have hrest : ∀ id', x ∈ allParts mtu id' rest →
        (x.2 = none ∧ x.1 ∈ data :: rest) ∨ ∃ j data', (fragmented mtu rest)[j]? = some data' ∧
          x ∈ headed (id' + UInt16.ofNat j) (UInt32.ofNat (chunkCount data'.length (mtu - 80))) 0
            (chunks data' (mtu - 80)) := by
      intro id' hx
      rcases ih hx with ⟨hnone, hmem⟩ | hpiece
      · exact .inl ⟨hnone, List.mem_cons_of_mem _ hmem⟩
      · exact .inr hpiece
    rw [allParts, messageParts, idAfter] at h
    cases hwhole : isWhole mtu data.length with
    | true =>
      have hsame : fragmented mtu (data :: rest) = fragmented mtu rest := List.filter_cons_of_neg (by simp [hwhole])
      rw [hwhole, if_pos rfl, if_pos rfl] at h
      rcases List.mem_append.1 h with hfirst | hlater
      · rw [List.mem_singleton.1 hfirst]
        exact .inl ⟨rfl, List.mem_cons_self⟩
      · rw [hsame]
        exact hrest id hlater
    | false =>
      have hcons : fragmented mtu (data :: rest) = data :: fragmented mtu rest := List.filter_cons_of_pos (by simp [hwhole])
      rw [hwhole, if_neg Bool.noConfusion, if_neg Bool.noConfusion] at h
      rw [hcons]
      rcases List.mem_append.1 h with hfirst | hlater
      · refine .inr ⟨0, data, rfl, ?_⟩
        rw [show UInt16.ofNat 0 = 0 from rfl, UInt16.add_zero]
        exact hfirst
      · rcases hrest (id + 1) hlater with hall | ⟨j, data', hj, hx⟩
        · exact .inl hall
        · refine .inr ⟨j + 1, data', hj, ?_⟩
          rw [UInt16.ofNat_add, UInt16.add_comm (UInt16.ofNat j), ← UInt16.add_assoc]
          exact hx

/-- a fragment that was sent is one of the message with its split id, as long as split ids are not used twice -/
theorem pieceOf_of_mem {mtu : Nat} {msgs : List Bytes} (hmtu : 81 < mtu) (hsize : ∀ data ∈ msgs, data.length < 2 ^ 32)
    (hfew : (fragmented mtu msgs).length ≤ 2 ^ 16) {payload : Bytes} {info : SplitInfo}
    (h : (payload, some info) ∈ allParts mtu 0 msgs) :
    PieceOf mtu msgs info.id.toNat info.count.toNat info.index.toNat payload := by
  rcases mem_allParts h with ⟨hnone, -⟩ | ⟨j, data, hj, hx⟩
  · cases hnone
  · obtain ⟨i, hi, hinfo⟩ := mem_headed hx
    have hmem : data ∈ msgs := List.mem_of_mem_filter (List.mem_of_getElem? hj)
    have hcount : chunkCount data.length (mtu - 80) < 2 ^ 32 := chunkCount_lt (hsize data hmem) (by omega)
    have hindex : i < chunkCount data.length (mtu - 80) := by
      rw [← length_chunks]
      exact (List.getElem?_eq_some_iff.1 hi).1
    have hid : j < (fragmented mtu msgs).length := (List.getElem?_eq_some_iff.1 hj).1
    obtain rfl : info = ⟨UInt32.ofNat (chunkCount data.length (mtu - 80)), 0 + UInt16.ofNat j, UInt32.ofNat (0 + i)⟩ :=
      Option.some.inj hinfo
    refine ⟨data, ?_, ?_, ?_⟩
    · have hsame : (0 + UInt16.ofNat j).toNat = j := by
        rw [UInt16.zero_add, UInt16.toNat_ofNat', Nat.mod_eq_of_lt (by omega)]
      rw [hsame]
      exact hj
    · rw [UInt32.toNat_ofNat', Nat.mod_eq_of_lt hcount]
    · have hsame : (UInt32.ofNat (0 + i)).toNat = i := by
        rw [Nat.zero_add, UInt32.toNat_ofNat', Nat.mod_eq_of_lt (by omega)]
      rw [hsame]
      exact hi

/-- **A complete set of fragments** is one of the messages. -/
theorem reassembled {mtu : Nat} {msgs : List Bytes} (hmtu : 80 < mtu) {id count index : Nat} {piece : Bytes}
    {fragments : NatMap Bytes} (hone : fragments[index]? = some piece) (hsize : fragments.size = count)
    (hall : ∀ (k : Nat) d, fragments[k]? = some d → PieceOf mtu msgs id count k d) :
    FragmentQueue.reassemble fragments ∈ msgs := by
  obtain ⟨data, hid, hcount, -⟩ := hall index piece hone
  have hchunks : ∀ (k : Nat) d, fragments[k]? = some d → (chunks data (mtu - 80))[k]? = some d := by
    intro k d hk
    obtain ⟨data', hid', -, hd⟩ := hall k d hk
    rw [hid] at hid'
    obtain rfl := Option.some.inj hid'
    exact hd
  have hcomplete := NatMap.positions_of_size hchunks (by rw [length_chunks, hcount, hsize])
  rw [FragmentQueue.reassemble, NatMap.values_of_positions hcomplete, chunks_flatten data (by omega)]
  exact List.mem_of_mem_filter (List.mem_of_getElem? hid)

/-! ## What a receiver holds -/

/-- everything a receiver holds, or has delivered, comes from these messages -/
structure From (mtu : Nat) (msgs : List Bytes) (h : Held) : Prop where
  delivered : ∀ d ∈ h.appData, d ∈ msgs
  channels : ∀ i, (h.channels.get i).Queues (· ∈ msgs)
  fragments : h.fragments.Holds (PieceOf mtu msgs)

variable {mtu : Nat} {msgs : List Bytes} {h : Held}

/-- a change of one channel -/
theorem From.setChannel (hh : From mtu msgs h) (k : Nat) (hk : k < 16) {appData : List Bytes} {channel : OrderedChannel}
    (hdata : ∀ d ∈ appData, d ∈ msgs) (hchannel : channel.Queues (· ∈ msgs)) :
    From mtu msgs { h with appData := appData, channels := h.channels.set k channel } := by
  refine ⟨hdata, ?_, hh.fragments⟩
  intro j
  by_cases hj : k = j
  · rw [get_set_self _ _ hk hj]
    exact hchannel
  · rw [get_set_ne _ _ hk hj]
    exact hh.channels j

theorem From.append (hh : From mtu msgs h) {ds : List Bytes} (hds : ∀ d ∈ ds, d ∈ msgs) :
    ∀ d ∈ h.appData ++ ds, d ∈ msgs := by
  intro d hd
  rcases List.mem_append.1 hd with hold | hnew
  · exact hh.delivered d hold
  · exact hds d hnew

/-- a login frame puts nothing in its channel that stays there -/
theorem From.advanced (hh : From mtu msgs h) (f : Frame) : From mtu msgs (h.advanced f) := by
  unfold Held.advanced
  cases f.orderIndex with
  | none => split_ifs <;> exact hh
  | some i =>
    dsimp only
    split_ifs with hordered h16 hnext
    · have hqueue := (hh.channels ⟨_, h16⟩).insert_next f.payload
      rw [hnext]
      exact hh.setChannel f.orderChannel.toNat h16 hh.delivered hqueue
    all_goals exact hh

/-- a game frame that was sent -/
theorem From.game (hh : From mtu msgs h) (hmtu : 81 < mtu) (hsize : ∀ data ∈ msgs, data.length < 2 ^ 32)
    (hfew : (fragmented mtu msgs).length ≤ 2 ^ 16) (p : Profile) (now : Nat) {f : Frame}
    (hf : partOf f ∈ allParts mtu 0 msgs) : From mtu msgs (h.game p now f) := by
  have hwhole : f.split = none → f.payload ∈ msgs := by
    intro hnone
    rcases mem_allParts hf with ⟨-, hmem⟩ | ⟨j, data, -, hx⟩
    · exact hmem
    · obtain ⟨i, -, hinfo⟩ := mem_headed hx
      rw [partOf, hnone] at hinfo
      cases hinfo
  unfold Held.game
  split_ifs with hordered
  · have hnone : f.split = none := Option.isNone_iff_eq_none.1 (Bool.and_eq_true_iff.1 hordered).2
    unfold Held.ordered
    split_ifs with h16
    · obtain ⟨hready, hqueue⟩ := (hh.channels ⟨_, h16⟩).insert (orderIndexOf f) (hwhole hnone)
      exact hh.setChannel f.orderChannel.toNat h16 (hh.append hready) hqueue
    · exact hh
  · cases hsplit : f.split with
    | none => exact ⟨hh.append fun d hd => by rw [List.mem_singleton.1 hd]; exact hwhole hsplit, hh.channels, hh.fragments⟩
    | some info =>
      have hpart : (f.payload, some info) ∈ allParts mtu 0 msgs := by
        rw [← hsplit]
        exact hf
      obtain ⟨hkept, hout⟩ := hh.fragments.insert now info.id.toNat info.index.toNat info.count.toNat
        fun _ => pieceOf_of_mem hmtu hsize hfew hpart
      dsimp only
      unfold Held.fragment
      split_ifs
      · refine ⟨hh.append ?_, hh.channels, hkept⟩
        intro d hd
        obtain ⟨fragments, hone, hcount, hall, rfl⟩ := hout d (Option.mem_toList.1 hd)
        exact reassembled (by omega) hone hcount hall
      · exact hh

/-- **A frame that makes nothing up** leaves only what was sent. -/
theorem From.after (hh : From mtu msgs h) (hmtu : 81 < mtu) (hsize : ∀ data ∈ msgs, data.length < 2 ^ 32)
    (hfew : (fragmented mtu msgs).length ≤ 2 ^ 16) (p : Profile) (now : Nat) (state : ConnectionState) {f : Frame}
    (hf : kindIn state f = .game → partOf f ∈ allParts mtu 0 msgs) : From mtu msgs (h.after p now state f) := by
  unfold Held.after
  cases hkind : kindIn state f with
  | request | incoming => exact hh.advanced f
  | game => exact hh.game hmtu hsize hfew p now (hf hkind)
  | empty | ping | pong | disconnect | echo => exact hh

theorem From.cleanupExpired (hh : From mtu msgs h) (now : Nat) :
    From mtu msgs { h with fragments := (h.fragments.cleanupExpired now).2 } := by
  refine ⟨hh.delivered, hh.channels, ?_⟩
  intro id e he
  have hkept : (h.fragments.splits.eraseAll (h.fragments.expired now))[id]? = some e := he
  rw [NatMap.getElem?_eraseAll] at hkept
  split_ifs at hkept
  exact hh.fragments id e hkept

/-- a message that `send` accepted was given to it -/
theorem mem_sentMessages {p : Profile} {s : Stream} {ops : List Op} {data : Bytes} (h : data ∈ sentMessages p s ops) :
    .send data ∈ ops := by
  induction ops generalizing s with
  | nil => cases h
  | cons op ops ih =>
    rw [sentMessages, Machine.trace] at h
    rcases List.mem_append.1 h with hfirst | hlater
    · cases op with
      | send data' =>
        unfold sentMessage at hfirst
        dsimp only at hfirst
        split_ifs at hfirst
        · rw [List.mem_singleton.1 hfirst]
          exact List.mem_cons_self
        · cases hfirst
      | _ => cases hfirst
    · exact List.mem_cons_of_mem _ (ih hlater)

/-! ## The receiver -/

/-- the frame that a step of the receive task hands to `handle_frame` -/
def frameOf (p : Profile) (s : Stream) : Op → Option Frame
  | .frame env => Session.frameOf p s.closers.session (.frame env)
  | _ => none

/-- if the step handles a game frame, its payload and split header are among these -/
def Genuine (p : Profile) (parts : List (Bytes × Option SplitInfo)) (s : Stream) (op : Op) : Prop :=
  ∀ f ∈ frameOf p s op, kind s.conn f = .game → partOf f ∈ parts

instance (p : Profile) (parts : List (Bytes × Option SplitInfo)) (s : Stream) (op : Op) : Decidable (Genuine p parts s op) :=
  inferInstanceAs (Decidable (∀ f ∈ frameOf p s op, kind s.conn f = .game → partOf f ∈ parts))

/-- a stream that handles a frame made of what was sent holds nothing else -/
theorem from_next {p : Profile} {parts : List (Bytes × Option SplitInfo)} (hparts : parts ⊆ allParts mtu 0 msgs)
    (hmtu : 81 < mtu) (hsize : ∀ data ∈ msgs, data.length < 2 ^ 32) (hfew : (fragmented mtu msgs).length ≤ 2 ^ 16)
    {s : Stream} (hs : From mtu msgs (heldView s.conn)) {op : Op} (hop : Genuine p parts s op) :
    From mtu msgs (heldView (next p s op).conn) := by
  have haccesses : Accesses p (fun c => From mtu msgs (heldView c)) :=
    accesses_held p fun _ now hh => hh.cleanupExpired now
  have hframe : ∀ env len rest, op = .frame env → s.phase = .frames len rest →
      From mtu msgs (heldView (frameStep p env rest s.conn).2) := by
    intro env len rest hframe hphase
    cases rest with
    | nil => exact hs
    | cons x b =>
      cases hd : Frame.decode p (x :: b) with
      | ok r =>
        have hframeOf : frameOf p s op = some r.1 := by
          have hsession : s.closers.session.phase = .frames len (x :: b) := hphase
          simp only [frameOf, hframe, Session.frameOf, hsession, hd]
        rw [Session.frameStep_conn hd, heldView_handleFrame]
        exact hs.after hmtu hsize hfew p env.now s.conn.shared.state fun hkind => hparts (hop r.1 hframeOf hkind)
      | err e =>
        simp only [Conn.frameStep, bind_apply, lift_apply, hd]
        exact hs
      | panic =>
        simp only [Conn.frameStep, bind_apply, lift_apply, hd]
        exact hs
  have hcases := next_cases_of haccesses.toCoreAccesses hs op
    (fun env _ => sendStep_keeps (held_sendFrame _) (fun _ hc => hc) env hs)
    (fun envs _ => tickStep_keeps haccesses (held_sendKeepalivePing _) envs hs)
    (fun env packet _ _ => haccesses.beginPacket env hs fun _ => held_handleConnectedPong p _ env _ s.conn hs) hframe
  rcases hcases with ⟨-, hnext⟩ | ⟨env, len, c, -, hc, hnext⟩
  · exact hnext
  · rw [hnext]
    exact hc

/-- one stream sends a message -/
def oneMessage : List Op := login ++ [.send [1, 2, 3], .sendTask quietEnv]

/-- its datagram arrives twice at another one -/
def arrivesTwice : List Op :=
  let datagram := (run .dev (new 1492 0 true) oneMessage).conn.sent.headD []
  let arrival : List Op := [.check, .packet quietEnv datagram, .frame quietEnv, .frame quietEnv, .frame quietEnv]
  arrival ++ arrival ++ [.recv]

end Stream

end RakNet
