/-
What happens to the data of an acknowledged datagram.

`handle_datagram` records the sequence number for an ACK before it looks at the frames. The sender never resends what
was acknowledged, so whatever a later stage discards is gone: a full channel queue, a refused or mismatched fragment, a
fragment clean-up, a login packet that advances a channel over queued payloads, and a handler that fails and takes the
rest of the datagram with it.

- `acknowledged_kept`: along every run in which none of these discards data of a covered frame, each covered frame of an
  acknowledged datagram has been delivered or is still held.
- `failed_handler_loses_frame`: a malformed ping in front of a reliable frame loses that frame.
-/
import RakNet.Connection.Frames

namespace RakNet

open Lib Lib.Wire

namespace Conn

/-! ## Frames that have to be kept -/

/-- a game frame of a reliable level; if it is ordered its channel exists, and unless it is a fragment its index is not
below the channel's next one -/
def covered (c : Conn) (f : Frame) : Bool :=
  f.reliability.isReliable && kind c f == .game &&
    (!f.reliability.isOrdered ||
      match c.shared.orderedChannels[f.orderChannel.toNat]? with
      | none => false
      | some chan => f.split.isSome || decide (chan.nextIndex ≤ orderIndexOf f))

namespace Held

/-- the payload has gone to the application, whole or as its part of a reassembled message -/
def Delivered (h : Held) (f : Frame) : Prop :=
  match f.split with
  | none => f.payload ∈ h.appData
  | some info => ∃ parts : NatMap Bytes, parts.size = info.count.toNat ∧ parts[info.index.toNat]? = some f.payload ∧
      FragmentQueue.reassemble parts ∈ h.appData

/-- the payload waits in the queue of its channel, if it is ordered, or as a fragment of its split id -/
def Waiting (h : Held) (f : Frame) : Prop :=
  match f.split with
  | none => f.reliability.isOrdered = true ∧
      ∃ chan, h.channels[f.orderChannel.toNat]? = some chan ∧ chan.queue[orderIndexOf f]? = some f.payload
  | some info => ∃ entry, h.fragments.splits[info.id.toNat]? = some entry ∧ entry.totalCount = info.count.toNat ∧
      entry.fragments[info.index.toNat]? = some f.payload

def Kept (h : Held) (f : Frame) : Prop := h.Delivered f ∨ h.Waiting f

theorem kept_whole {h : Held} {f : Frame} (hs : f.split = none) :
    h.Kept f ↔ f.payload ∈ h.appData ∨ f.reliability.isOrdered = true ∧
      ∃ chan, h.channels[f.orderChannel.toNat]? = some chan ∧ chan.queue[orderIndexOf f]? = some f.payload := by
  simp only [Kept, Delivered, Waiting, hs]

theorem kept_fragment {h : Held} {f : Frame} {info : SplitInfo} (hs : f.split = some info) :
    h.Kept f ↔
      (∃ parts : NatMap Bytes, parts.size = info.count.toNat ∧ parts[info.index.toNat]? = some f.payload ∧
        FragmentQueue.reassemble parts ∈ h.appData) ∨
      ∃ entry, h.fragments.splits[info.id.toNat]? = some entry ∧ entry.totalCount = info.count.toNat ∧
        entry.fragments[info.index.toNat]? = some f.payload := by
  simp only [Kept, Delivered, Waiting, hs]

end Held

/-! ## Steps that discard nothing -/

/-- the channel has the frame's index behind it or next, has this payload at it, or has room and nothing at it -/
def channelTakes (chan : OrderedChannel) (index : Nat) (payload : Bytes) : Bool :=
  decide (index ≤ chan.nextIndex) || chan.queue[index]? == some payload ||
    (decide (chan.queue.size < chan.maxQueueSize) && chan.queue[index]? == none)

/-- the fragment has the count of its entry; one that has to be kept is valid and admitted, and its index is free or
holds the same bytes -/
def fragmentTakes (q : FragmentQueue) (must : Bool) (id index count : Nat) (payload : Bytes) : Bool :=
  (!must || (decide (index < count) && q.admits id)) &&
  match q.splits[id]? with
  | none => true
  | some entry =>
    (decide (count ≤ index) || entry.totalCount == count) &&
    (!must || entry.fragments[index]? == none || entry.fragments[index]? == some payload)

/-- a login frame advances its channel over nothing that is queued -/
def advanceTakes (c : Conn) (f : Frame) : Bool :=
  !f.reliability.isOrdered ||
    match f.orderIndex, c.shared.orderedChannels[f.orderChannel.toNat]? with
    | some index, some chan => index.get != chan.nextIndex || chan.advance.queue[chan.advance.nextIndex]? == none
    | _, _ => true

/-- handling the frame in this state discards nothing that has to be kept -/
def fits (c : Conn) (f : Frame) : Bool :=
  match kind c f with
  | .request | .incoming => advanceTakes c f
  | .game =>
    if f.reliability.isOrdered && f.split.isNone then
      match c.shared.orderedChannels[f.orderChannel.toNat]? with
      | none => true
      | some chan => channelTakes chan (orderIndexOf f) f.payload
    else match f.split with
      | none => true
      | some info =>
        fragmentTakes c.shared.fragmentQueue (covered c f) info.id.toNat info.index.toNat info.count.toNat f.payload
  | .empty | .ping | .pong | .disconnect | .echo => true

/-! ## One frame -/

/-- a channel is replaced by one that has kept or handed out every payload of its queue -/
theorem Held.Kept.setChannel {h : Held} {f : Frame} (hk : h.Kept f) {k : Nat} (h16 : k < 16)
    (chan : OrderedChannel) (ready : List Bytes)
    (hchan : ∀ (i : Nat) d, h.channels[k].queue[i]? = some d → chan.queue[i]? = some d ∨ d ∈ ready) :
    Held.Kept ⟨h.appData ++ ready, h.channels.set k chan, h.fragments⟩ f := by
  cases hs : f.split with
  | none =>
    rw [Held.kept_whole hs] at hk ⊢
    rcases hk with hd | ⟨ho, old, hold, hq⟩
    · exact Or.inl (List.mem_append_left _ hd)
    · by_cases hch : k = f.orderChannel.toNat
      · subst hch
        rw [Vector.getElem?_eq_getElem h16, Option.some.injEq] at hold
        rw [← hold] at hq
        rcases hchan _ _ hq with hq | hd
        · exact Or.inr ⟨ho, chan, Vector.getElem?_set_self h16, hq⟩
        · exact Or.inl (List.mem_append_right _ hd)
      · exact Or.inr ⟨ho, old, by rw [Vector.getElem?_set_ne h16 hch]; exact hold, hq⟩
  | some info =>
    rw [Held.kept_fragment hs] at hk ⊢
    rcases hk with ⟨parts, h1, h2, h3⟩ | hw
    · exact Or.inl ⟨parts, h1, h2, List.mem_append_left _ h3⟩
    · exact Or.inr hw

/-- the fragment queue is replaced by one that has kept or handed out every fragment -/
theorem Held.Kept.setFragments {h : Held} {f : Frame} (hk : h.Kept f) {q : FragmentQueue} {ready : List Bytes}
    (hq : ∀ (id i : Nat) e d, h.fragments.splits[id]? = some e → e.fragments[i]? = some d →
      (∃ e', q.splits[id]? = some e' ∧ e'.totalCount = e.totalCount ∧ e'.fragments[i]? = some d) ∨
      ∃ parts : NatMap Bytes, parts.size = e.totalCount ∧ parts[i]? = some d ∧
        FragmentQueue.reassemble parts ∈ ready) :
    Held.Kept ⟨h.appData ++ ready, h.channels, q⟩ f := by
  cases hs : f.split with
  | none =>
    rw [Held.kept_whole hs] at hk ⊢
    rcases hk with hd | hw
    · exact Or.inl (List.mem_append_left _ hd)
    · exact Or.inr hw
  | some info =>
    rw [Held.kept_fragment hs] at hk ⊢
    rcases hk with ⟨parts, h1, h2, h3⟩ | ⟨e, h1, h2, h3⟩
    · exact Or.inl ⟨parts, h1, h2, List.mem_append_left _ h3⟩
    · rcases hq _ _ e _ h1 h3 with ⟨e', he', hc, hf⟩ | ⟨parts, hp, hi, hr⟩
      · exact Or.inr ⟨e', he', hc.trans h2, hf⟩
      · exact Or.inl ⟨parts, hp.trans h2, hi, List.mem_append_right _ hr⟩

/-- an insertion the channel takes loses nothing of its queue -/
theorem channel_insert_keeps {chan : OrderedChannel} {i : Nat} {payload : Bytes} (h : channelTakes chan i payload = true)
    {k : Nat} {d : Bytes} (hk : chan.queue[k]? = some d) :
    (chan.insert i payload).2.queue[k]? = some d ∨ d ∈ (chan.insert i payload).1 := by
  rcases chan.insert_cases i payload with ⟨-, he⟩ | ⟨hlt, -, he⟩ | ⟨-, -, he⟩ | ⟨-, he⟩
  · rw [he]
    rcases chan.advance.drain_keeps (k := k) hk with hq | hd
    · exact Or.inl hq
    · exact Or.inr (List.mem_cons_of_mem _ hd)
  · rw [he]
    left
    simp only [NatMap.get?_insert]
    split_ifs with hki
    · -- the index is taken only by the payload that is there already
      subst hki
      simp only [channelTakes, hk, beq_iff_eq, Option.some.injEq, reduceCtorEq, Bool.or_eq_true, decide_eq_true_eq,
        Bool.and_eq_true, and_false, or_false] at h
      rcases h with h | h
      · omega
      · rw [h]
    · exact hk
  · rw [he]
    exact Or.inl hk
  · rw [he]
    exact Or.inl hk

/-- a payload not below the next index is handed out or queued -/
theorem channel_insert_own {chan : OrderedChannel} {i : Nat} {payload : Bytes} (h : channelTakes chan i payload = true)
    (hi : chan.nextIndex ≤ i) :
    payload ∈ (chan.insert i payload).1 ∨ (chan.insert i payload).2.queue[i]? = some payload := by
  rcases chan.insert_cases i payload with ⟨-, he⟩ | ⟨-, -, he⟩ | ⟨hlt, hfull, he⟩ | ⟨hlt, -⟩
  · rw [he]
    exact Or.inl List.mem_cons_self
  · rw [he]
    right
    simp only [NatMap.get?_insert, if_true]
  · rw [he]
    right
    simp only [channelTakes, Bool.or_eq_true, decide_eq_true_eq, beq_iff_eq, Bool.and_eq_true] at h
    rcases h with (h | h) | h
    · omega
    · exact h
    · omega
  · omega

/-- what `fragmentTakes` says of an entry that is there -/
theorem fragmentTakes_entry {q : FragmentQueue} {must : Bool} {id index count : Nat} {payload : Bytes}
    (h : fragmentTakes q must id index count payload = true) {e : FragmentEntry} (he : q.splits[id]? = some e)
    (hlt : index < count) :
    e.totalCount = count ∧ (must = true → ∀ d, e.fragments[index]? = some d → d = payload) := by
  simp only [fragmentTakes, he, Bool.and_eq_true, Bool.or_eq_true, decide_eq_true_eq, beq_iff_eq,
    Bool.not_eq_true'] at h
  obtain ⟨-, hcount, hfree⟩ := h
  refine ⟨hcount.resolve_left (by omega), ?_⟩
  intro hm d hd
  rw [hm, hd] at hfree
  simpa using hfree

/-- the entry of a fragment that is taken has its count -/
theorem fragmentTakes_count {q : FragmentQueue} {must : Bool} {id index count : Nat} {payload : Bytes} (now : Nat)
    (h : fragmentTakes q must id index count payload = true) (hlt : index < count) :
    (q.entryAt now id count).totalCount = count := by
  cases hentry : q.splits[id]? with
  | none => simp [FragmentQueue.entryAt, hentry]
  | some e =>
    rw [FragmentQueue.entryAt_of_some hentry]
    exact (fragmentTakes_entry h hentry hlt).1

/-- an insertion the queue takes loses no fragment: it keeps it or hands it out in a reassembled message -/
theorem fragment_insert_keeps {q : FragmentQueue} {must : Bool} {id index count : Nat} {payload : Bytes} (now : Nat)
    (h : fragmentTakes q must id index count payload = true) {k i : Nat} {e : FragmentEntry} {d : Bytes}
    (he : q.splits[k]? = some e) (hd : e.fragments[i]? = some d) :
    (∃ e', (q.insert now id index count payload).2.splits[k]? = some e' ∧ e'.totalCount = e.totalCount ∧
      e'.fragments[i]? = some d) ∨
    ∃ parts : NatMap Bytes, parts.size = e.totalCount ∧ parts[i]? = some d ∧
      FragmentQueue.reassemble parts ∈ (q.insert now id index count payload).1.toList := by
  have hstay : q.insert now id index count payload = (none, q) →
      ∃ e', (q.insert now id index count payload).2.splits[k]? = some e' ∧ e'.totalCount = e.totalCount ∧
        e'.fragments[i]? = some d := by
    intro hq
    rw [hq]
    exact ⟨e, he, rfl, hd⟩
  rcases q.insert_cases now id index count payload with ⟨-, hq⟩ | ⟨hlt, -, hne, -⟩ | ⟨-, -, -, -, hq⟩ |
    ⟨hlt, -, hcount, hnew, hsize, hq⟩ | ⟨hlt, -, hcount, hnew, -, hq⟩
  · exact Or.inl (hstay hq)
  · exact absurd (fragmentTakes_count now h hlt) hne
  · exact Or.inl (hstay hq)
  all_goals rw [hq]; by_cases hk : id = k
  · subst hk
    rw [FragmentQueue.entryAt_of_some he] at hcount hnew hsize ⊢
    refine Or.inr ⟨_, hsize.trans hcount.symm, ?_, List.mem_singleton.2 rfl⟩
    rw [NatMap.get?_insert, if_neg (fun hi => by rw [← hi, hnew] at hd; cases hd)]
    exact hd
  · refine Or.inl ⟨e, ?_, rfl, hd⟩
    rw [NatMap.get?_erase, if_neg hk]
    exact he
  · subst hk
    rw [FragmentQueue.entryAt_of_some he] at hcount hnew ⊢
    refine Or.inl ⟨{ e with fragments := e.fragments.insert index payload }, by simp, rfl, ?_⟩
    simp only [NatMap.get?_insert]
    rw [if_neg (fun hi => by rw [← hi, hnew] at hd; cases hd)]
    exact hd
  · refine Or.inl ⟨e, ?_, rfl, hd⟩
    rw [NatMap.get?_insert, if_neg hk]
    exact he

/-- a fragment that has to be kept is stored, or part of the message it completes -/
theorem fragment_insert_own {q : FragmentQueue} {id index count : Nat} {payload : Bytes} (now : Nat)
    (h : fragmentTakes q true id index count payload = true) :
    (∃ parts : NatMap Bytes, parts.size = count ∧ parts[index]? = some payload ∧
      FragmentQueue.reassemble parts ∈ (q.insert now id index count payload).1.toList) ∨
    ∃ e, (q.insert now id index count payload).2.splits[id]? = some e ∧ e.totalCount = count ∧
      e.fragments[index]? = some payload := by
  have hvalid : index < count ∧ q.admits id = true := by
    simp only [fragmentTakes, Bool.not_true, Bool.false_or, Bool.and_eq_true, decide_eq_true_eq] at h
    exact h.1
  rcases q.insert_cases now id index count payload with ⟨hbad, -⟩ | ⟨hlt, -, hne, -⟩ | ⟨hlt, -, hcount, ⟨d, hd⟩, hq⟩ |
    ⟨hlt, -, hcount, hnew, hsize, hq⟩ | ⟨hlt, -, hcount, hnew, -, hq⟩
  · rcases hbad with hbad | hbad
    · omega
    · rw [hvalid.2] at hbad
      cases hbad
  · exact absurd (fragmentTakes_count now h hlt) hne
  · rw [hq]
    cases hentry : q.splits[id]? with
    | none => simp [FragmentQueue.entryAt, hentry] at hd
    | some e =>
      rw [FragmentQueue.entryAt_of_some hentry] at hcount hd
      have hsame := (fragmentTakes_entry h hentry hlt).2 rfl d hd
      exact Or.inr ⟨e, rfl, hcount, by rw [hd, hsame]⟩
  · rw [hq]
    exact Or.inl ⟨_, hsize, by simp, List.mem_singleton.2 rfl⟩
  · rw [hq]
    refine Or.inr ⟨{ q.entryAt now id count with
      fragments := (q.entryAt now id count).fragments.insert index payload }, ?_, hcount, ?_⟩
    · rw [NatMap.get?_insert, if_pos rfl]
    · rw [NatMap.get?_insert, if_pos rfl]

theorem channel?_of_lt {c : Conn} {f : Frame} (h : f.orderChannel.toNat < 16) :
    c.shared.orderedChannels[f.orderChannel.toNat]? = some c.shared.orderedChannels[f.orderChannel.toNat] :=
  Vector.getElem?_eq_getElem h

/-- a game frame that fits loses nothing that was kept -/
theorem handleGamePacket_keeps (p : Profile) (env : Env) {f g : Frame} {c : Conn} (hkind : kind c f = .game)
    (hfit : fits c f = true) (hk : (heldView c).Kept g) : (heldView (handleGamePacket p env f c).2).Kept g := by
  rw [handleGamePacket_eq]
  simp only [fits, hkind] at hfit
  by_cases hord : (f.reliability.isOrdered && f.split.isNone) = true
  · rw [if_pos hord] at hfit ⊢
    by_cases h16 : f.orderChannel.toNat < 16
    · rw [channel?_of_lt h16] at hfit
      rw [deliverOrdered_apply h16]
      exact hk.setChannel h16 _ _ fun i d hi => channel_insert_keeps hfit hi
    · rw [deliverOrdered_panic h16]
      exact hk
  · rw [if_neg hord] at hfit ⊢
    cases hs : f.split with
    | none =>
      rw [deliverWhole_apply hs]
      exact hk.setFragments fun id i e d he hd => Or.inl ⟨e, he, rfl, hd⟩
    | some info =>
      rw [hs] at hfit
      cases hok : (p.add 32 info.index.toNat 1).isOk with
      | true =>
        rw [deliverFragment_apply hs hok]
        exact hk.setFragments fun id i e d he hd => fragment_insert_keeps env.now hfit he hd
      | false =>
        rw [deliverFragment_panic hs hok]
        exact hk

/-- a covered frame that fits is kept itself -/
theorem handleGamePacket_own (p : Profile) (env : Env) {f : Frame} {c : Conn} (hcov : covered c f = true)
    (hfit : fits c f = true) : (heldView (handleGamePacket p env f c).2).Kept f := by
  have hcov' := hcov
  simp only [covered, Bool.and_eq_true, beq_iff_eq] at hcov'
  obtain ⟨⟨hrel, hkind⟩, hchan⟩ := hcov'
  rw [handleGamePacket_eq]
  simp only [fits, hkind, hcov] at hfit
  by_cases hord : (f.reliability.isOrdered && f.split.isNone) = true
  · obtain ⟨ho, hsplit⟩ := Bool.and_eq_true_iff.1 hord
    have hs : f.split = none := Option.isNone_iff_eq_none.1 hsplit
    rw [if_pos hord] at hfit ⊢
    rw [ho, hs] at hchan
    by_cases h16 : f.orderChannel.toNat < 16
    · rw [channel?_of_lt h16] at hfit hchan
      have hnext : c.shared.orderedChannels[f.orderChannel.toNat].nextIndex ≤ orderIndexOf f := by simpa using hchan
      rw [deliverOrdered_apply h16, Held.kept_whole hs]
      rcases channel_insert_own hfit hnext with hd | hq
      · exact Or.inl (List.mem_append_right _ hd)
      · exact Or.inr ⟨ho, _, Vector.getElem?_set_self h16, hq⟩
    · rw [Vector.getElem?_eq_none (Nat.not_lt.1 h16)] at hchan
      cases hchan
  · rw [if_neg hord] at hfit ⊢
    cases hs : f.split with
    | none =>
      rw [deliverWhole_apply hs, Held.kept_whole hs]
      left
      exact List.mem_append_right _ (List.mem_singleton.2 rfl)
    | some info =>
      rw [hs] at hfit
      have hlt : info.index.toNat < info.count.toNat := by
        simp only [fragmentTakes, Bool.not_true, Bool.false_or, Bool.and_eq_true, decide_eq_true_eq] at hfit
        exact hfit.1.1
      -- a valid index is below a `u32`, so the log line of the fragment does not overflow
      have hok : (p.add 32 info.index.toNat 1).isOk = true := by
        rw [Profile.add_of_lt p (lt_of_le_of_lt hlt info.count.toNat_lt)]
        rfl
      rw [deliverFragment_apply hs hok, Held.kept_fragment hs]
      rcases fragment_insert_own env.now hfit with ⟨parts, h1, h2, h3⟩ | hw
      · exact Or.inl ⟨parts, h1, h2, List.mem_append_right _ h3⟩
      · exact Or.inr hw

/-- a login frame that fits advances its channel over nothing -/
theorem advanceChannel_keeps {f g : Frame} {c : Conn} (hfit : advanceTakes c f = true) (hk : (heldView c).Kept g) :
    (heldView (advanceChannel f c).2).Kept g := by
  unfold advanceChannel
  by_cases ho : f.reliability.isOrdered = true
  · rw [if_pos ho]
    simp only [advanceTakes, ho, Bool.not_true, Bool.false_or] at hfit
    cases hi : f.orderIndex with
    | none => exact hk
    | some index =>
      rw [hi] at hfit
      by_cases h16 : f.orderChannel.toNat < 16
      · rw [channel?_of_lt h16] at hfit
        dsimp only at hfit ⊢
        rw [onChannel_of_lt h16]
        have hset := hk.setChannel h16 (if index.get = c.shared.orderedChannels[f.orderChannel.toNat].nextIndex then
              ((), (c.shared.orderedChannels[f.orderChannel.toNat].insert index.get f.payload).2)
            else ((), c.shared.orderedChannels[f.orderChannel.toNat])).2 [] fun i d hd => by
          left
          split_ifs with hnext
          · rcases OrderedChannel.insert_cases c.shared.orderedChannels[f.orderChannel.toNat] index.get f.payload with
              ⟨-, he⟩ | ⟨hlt, -⟩ | ⟨hlt, -⟩ | ⟨hlt, -⟩
            · simp only [hnext, bne_self_eq_false, Bool.false_or, beq_iff_eq] at hfit
              rw [he, OrderedChannel.drain_of_none hfit]
              exact hd
            all_goals omega
          · exact hd
        rw [List.append_nil] at hset
        exact hset
      · dsimp only
        rw [onChannel_of_not_lt h16]
        exact hk
  · rw [if_neg ho]
    exact hk

/-- **One frame.** A frame that fits loses nothing that was kept, however its handler ends. -/
theorem handleFrame_keeps (p : Profile) (env : Env) {f g : Frame} {c : Conn} (hfit : fits c f = true)
    (hk : (heldView c).Kept g) : (heldView (handleFrame p env f c).2).Kept g := by
  rw [handleFrame_eq]
  cases hkind : kind c f with
  | empty | disconnect | echo => exact hk
  | ping =>
    have hsame := preserves_heldView (preserves_handleConnectedPing env f.payload) c
    exact hsame ▸ hk
  | pong =>
    have hsame := preserves_heldView (preserves_handleConnectedPong p env f.payload) c
    exact hsame ▸ hk
  | request =>
    simp only [fits, hkind] at hfit
    have hsame := Action.component_bind (x := advanceChannel f)
      (fun _ => preserves_heldView (preserves_handleConnectionRequest env f.payload)) c
    exact hsame ▸ advanceChannel_keeps hfit hk
  | incoming =>
    simp only [fits, hkind] at hfit
    have hsame := Action.component_bind (x := advanceChannel f) (fun _ => heldView_markReady) c
    exact hsame ▸ advanceChannel_keeps hfit hk
  | game => exact handleGamePacket_keeps p env hkind hfit hk

/-- a covered frame that fits is kept itself -/
theorem handleFrame_own (p : Profile) (env : Env) {f : Frame} {c : Conn} (hcov : covered c f = true)
    (hfit : fits c f = true) : (heldView (handleFrame p env f c).2).Kept f := by
  have hkind : kind c f = .game := by
    simp only [covered, Bool.and_eq_true, beq_iff_eq] at hcov
    exact hcov.1.2
  rw [handleFrame_eq, hkind]
  exact handleGamePacket_own p env hcov hfit

/-! ## The frames of a datagram -/

/-- the covered frames among those of a datagram, each judged in the state it meets; when a handler fails, the frames
behind it meet the state it has left -/
def coveredFrames (p : Profile) : (Nat → Env) → Conn → List Frame → List Frame
  | _, _, [] => []
  | envs, c, f :: rest =>
    [f].filter (covered c) ++
      match handleFrame p (envs 0) f c with
      | (.ok (), c') => coveredFrames p (fun i => envs (i + 1)) c' rest
      | (_, c') => rest.filter (covered c')

/-- every frame fits, and no covered frame stands behind one whose handler fails -/
def lossless (p : Profile) : (Nat → Env) → Conn → List Frame → Bool
  | _, _, [] => true
  | envs, c, f :: rest =>
    fits c f &&
      if handlerOk p (envs 0) c f then lossless p (fun i => envs (i + 1)) (handleFrame p (envs 0) f c).2 rest
      else rest.all fun g => !covered (handleFrame p (envs 0) f c).2 g

/-- a frame of a lossless datagram whose handler succeeds leaves a lossless rest -/
theorem lossless_ok {p : Profile} {envs : Nat → Env} {c c' : Conn} {f : Frame} {rest : List Frame}
    (h : lossless p envs c (f :: rest) = true) (hr : handleFrame p (envs 0) f c = (.ok (), c')) :
    lossless p (fun i => envs (i + 1)) c' rest = true := by
  have hok := handleFrame_isOk p (envs 0) f c
  obtain ⟨-, hrest⟩ := Bool.and_eq_true_iff.1 h
  rw [hr] at hok hrest
  rw [← hok] at hrest
  exact hrest

/-- one whose handler fails has no covered frame behind it -/
theorem lossless_failed {p : Profile} {envs : Nat → Env} {c c' : Conn} {f : Frame} {rest : List Frame}
    {r : Result Unit} (h : lossless p envs c (f :: rest) = true) (hr : handleFrame p (envs 0) f c = (r, c'))
    (hfail : r.isOk = false) : rest.filter (covered c') = [] := by
  have hok := handleFrame_isOk p (envs 0) f c
  obtain ⟨-, hrest⟩ := Bool.and_eq_true_iff.1 h
  rw [hr] at hok hrest
  rw [← hok, hfail] at hrest
  apply List.filter_eq_nil_iff.2
  intro g hg
  have hnot := List.all_eq_true.1 hrest g hg
  simpa using hnot

theorem handleFrames_keeps (p : Profile) (envs : Nat → Env) {fs : List Frame} {c : Conn} {g : Frame}
    (h : lossless p envs c fs = true) (hk : (heldView c).Kept g) : (heldView (handleFrames p envs fs c).2).Kept g := by
  induction fs generalizing envs c with
  | nil => exact hk
  | cons f rest ih =>
    have hf := handleFrame_keeps p (envs 0) (Bool.and_eq_true_iff.1 h).1 hk
    unfold handleFrames
    rw [Action.bind_apply]
    cases hr : handleFrame p (envs 0) f c with
    | mk r c' =>
      rw [hr] at hf
      cases r with
      | ok u => exact ih _ (lossless_ok h hr) hf
      | err e => exact hf
      | panic => exact hf

/-- **The frames of a datagram.** Each covered one is kept when the loop is over. -/
theorem handleFrames_own (p : Profile) (envs : Nat → Env) {fs : List Frame} {c : Conn} {g : Frame}
    (h : lossless p envs c fs = true) (hg : g ∈ coveredFrames p envs c fs) :
    (heldView (handleFrames p envs fs c).2).Kept g := by
  induction fs generalizing envs c with
  | nil => cases hg
  | cons f rest ih =>
    have hfit := (Bool.and_eq_true_iff.1 h).1
    unfold coveredFrames at hg
    unfold handleFrames
    rw [Action.bind_apply]
    rcases List.mem_append.1 hg with hg | hg
    · -- the frame itself: kept by its own handler, and by those that follow
      obtain ⟨hmem, hcov⟩ := List.mem_filter.1 hg
      rw [List.mem_singleton.1 hmem] at hcov ⊢
      have hf := handleFrame_own p (envs 0) hcov hfit
      cases hr : handleFrame p (envs 0) f c with
      | mk r c' =>
        rw [hr] at hf
        cases r with
        | ok u => exact handleFrames_keeps p _ (lossless_ok h hr) hf
        | err e => exact hf
        | panic => exact hf
    · cases hr : handleFrame p (envs 0) f c with
      | mk r c' =>
        rw [hr] at hg
        cases r with
        | ok u => exact ih _ (lossless_ok h hr) hg
        | err e =>
          dsimp only at hg
          rw [lossless_failed h hr rfl] at hg
          cases hg
        | panic =>
          dsimp only at hg
          rw [lossless_failed h hr rfl] at hg
          cases hg

end Conn

/-! ## Runs of the receiver -/

/-- a connection, and the frames its ACKs have promised to keep -/
structure Receiver where
  conn : Conn
  /-- covered frames of the datagrams put in `pending_acks`, with the datagram's number -/
  owed : List (U24 × Frame)

namespace Receiver

open Conn

inductive Op where
  | handleDatagram (envs : Nat → Env) (seq : U24) (framesData : Bytes)
  | flushAcks (env : Env)
  | cleanupExpired (env : Env)

/-- does `mark_received` answer `Some(true)` -/
def accepts (c : Conn) (seq : U24) : Bool := (c.shared.recvWindow.markReceived seq.get).1 == some true

/-- the connection when the number is marked and recorded for an ACK, before its frames are looked at -/
def recorded (c : Conn) (seq : U24) : Conn := (recordAck seq (markReceived seq c).2).2

def step (p : Profile) (r : Receiver) : Op → Receiver
  | .handleDatagram envs seq framesData =>
    ⟨(Conn.handleDatagram p envs seq framesData r.conn).2,
      if accepts r.conn seq then
        r.owed ++ (coveredFrames p envs (recorded r.conn seq) (Frame.decodeFrames p framesData).1).map (seq, ·)
      else r.owed⟩
  | .flushAcks env => ⟨(Conn.flushAcks env r.conn).2, r.owed⟩
  | .cleanupExpired env => ⟨(Conn.cleanupExpired env r.conn).2, r.owed⟩

def run (p : Profile) (r : Receiver) (ops : List Op) : Receiver := Machine.run (step p) r ops

def init (mtu : UInt16) (nowMicros : Nat) (ready : Bool) : Receiver := ⟨.new mtu nowMicros ready, []⟩

/-- the side condition of a step: an accepted datagram is lossless, and a clean-up takes no fragment that is owed and
not delivered -/
def Lossless (p : Profile) (r : Receiver) : Op → Prop
  | .handleDatagram envs seq framesData => accepts r.conn seq = true →
      lossless p envs (recorded r.conn seq) (Frame.decodeFrames p framesData).1 = true
  | .flushAcks _ => True
  | .cleanupExpired env => ∀ x ∈ r.owed, ∀ info, x.2.split = some info →
      info.id.toNat ∈ r.conn.shared.fragmentQueue.expired env.now → (heldView r.conn).Delivered x.2

/-- everything owed is kept -/
def Inv (r : Receiver) : Prop := ∀ x ∈ r.owed, (heldView r.conn).Kept x.2

/-- an accepted datagram: mark, record, and the frames it decodes to -/
theorem heldView_accepted (p : Profile) (envs : Nat → Env) (seq : U24) (data : Bytes) {c : Conn}
    (h : accepts c seq = true) : heldView (Conn.handleDatagram p envs seq data c).2 =
      heldView (handleFrames p envs (Frame.decodeFrames p data).1 (recorded c seq)).2 := by
  have hmark : markReceived seq c = (.ok (c.shared.recvWindow.markReceived seq.get).1, (markReceived seq c).2) := rfl
  unfold Conn.handleDatagram
  rw [Action.bind_of_ok hmark, if_pos (by simpa [accepts] using h)]
  show heldView (frameLoop p data.length envs data (recorded c seq)).2 = _
  rw [frameLoop_eq]
  exact Action.component_bind (fun _ => Action.preserves_lift _ _) _

theorem heldView_refused (p : Profile) (envs : Nat → Env) (seq : U24) (data : Bytes) {c : Conn}
    (h : accepts c seq = false) : heldView (Conn.handleDatagram p envs seq data c).2 = heldView c := by
  have hmark : markReceived seq c = (.ok (c.shared.recvWindow.markReceived seq.get).1, (markReceived seq c).2) := rfl
  unfold Conn.handleDatagram
  rw [Action.bind_of_ok hmark, if_neg (by simpa [accepts] using h)]
  rfl

theorem Inv.handleDatagram {p : Profile} {r : Receiver} (h : r.Inv) {envs : Nat → Env} {seq : U24} {data : Bytes}
    (hl : Lossless p r (.handleDatagram envs seq data)) : (step p r (.handleDatagram envs seq data)).Inv := by
  cases ha : accepts r.conn seq with
  | false =>
    have hstep : step p r (.handleDatagram envs seq data) =
        ⟨(Conn.handleDatagram p envs seq data r.conn).2, r.owed⟩ := by
      simp [step, ha]
    rw [hstep]
    intro x hx
    show (heldView (Conn.handleDatagram p envs seq data r.conn).2).Kept x.2
    rw [heldView_refused p envs seq data ha]
    exact h x hx
  | true =>
    have hstep : step p r (.handleDatagram envs seq data) =
        ⟨(Conn.handleDatagram p envs seq data r.conn).2, r.owed ++
          (coveredFrames p envs (recorded r.conn seq) (Frame.decodeFrames p data).1).map (seq, ·)⟩ := by
      simp [step, ha]
    rw [hstep]
    intro x hx
    show (heldView (Conn.handleDatagram p envs seq data r.conn).2).Kept x.2
    rw [heldView_accepted p envs seq data ha]
    rcases List.mem_append.1 hx with hx | hx
    · exact handleFrames_keeps p envs (hl ha) (h x hx)
    · obtain ⟨f, hf, rfl⟩ := List.mem_map.1 hx
      exact handleFrames_own p envs (hl ha) hf

theorem preserves_flushAcks (env : Env) : Action.Preserves heldView (Conn.flushAcks env) := by
  refine Action.Preserves.bind (fun _ => rfl) fun l => ?_
  exact preserves_heldView (preserves_flushTail env l (encodeAck l))

theorem Inv.cleanupExpired {p : Profile} {r : Receiver} (h : r.Inv) {env : Env}
    (hl : Lossless p r (.cleanupExpired env)) : (step p r (.cleanupExpired env)).Inv := by
  intro x hx
  have hk := h x hx
  cases hs : x.2.split with
  | none =>
    rw [Held.kept_whole hs] at hk ⊢
    exact hk
  | some info =>
    by_cases hexp : info.id.toNat ∈ r.conn.shared.fragmentQueue.expired env.now
    · have hd := hl x hx info hs hexp
      unfold Held.Delivered at hd
      rw [hs] at hd
      rw [Held.kept_fragment hs]
      exact Or.inl hd
    · rw [Held.kept_fragment hs] at hk ⊢
      rcases hk with hd | ⟨e, he, hrest⟩
      · exact Or.inl hd
      · refine Or.inr ⟨e, ?_, hrest⟩
        show (r.conn.shared.fragmentQueue.splits.eraseAll _)[info.id.toNat]? = some e
        rw [NatMap.getElem?_eraseAll, if_neg hexp]
        exact he

/-- **One step.** -/
theorem step_inv (p : Profile) (r : Receiver) (op : Op) (h : r.Inv) (hl : Lossless p r op) : (step p r op).Inv := by
  cases op with
  | handleDatagram envs seq data => exact h.handleDatagram hl
  | flushAcks env =>
    intro x hx
    show (heldView (Conn.flushAcks env r.conn).2).Kept x.2
    rw [preserves_flushAcks env r.conn]
    exact h x hx
  | cleanupExpired env => exact h.cleanupExpired hl

/-- **Acknowledged means kept.** Along every run whose datagrams are lossless and whose clean-ups take nothing owed, each
covered frame of each datagram put in `pending_acks` has been delivered to the application or is still held in its
channel or in the fragment queue. -/
theorem acknowledged_kept (p : Profile) (mtu : UInt16) (nowMicros : Nat) (ready : Bool) (ops : List Op)
    (hops : Machine.Steps (step p) (Lossless p) (init mtu nowMicros ready) ops) :
    ∀ x ∈ (run p (init mtu nowMicros ready) ops).owed,
      (heldView (run p (init mtu nowMicros ready) ops).conn).Kept x.2 :=
  Machine.run_inv_of_steps (step_inv p) (fun _ hx => absurd hx List.not_mem_nil) hops

/-- an ordered frame on channel 0 -/
def orderedFrame (index : Nat) (payload : Bytes) : Frame :=
  ((Frame.new .reliableOrdered payload).withMessageIndex (U24.new index)).withOrder (U24.new index) 0

/-- the second of two ordered frames comes first; then a fragment that waits for its other half -/
def outOfOrder : List Op :=
  [.handleDatagram (fun _ => quietEnv) (U24.new 0) (orderedFrame 1 [2]).encode,
    .handleDatagram (fun _ => quietEnv) (U24.new 1) (orderedFrame 0 [1]).encode,
    .flushAcks quietEnv,
    .handleDatagram (fun _ => quietEnv) (U24.new 2) ((orderedFrame 2 [5]).withSplit ⟨2, 0, 0⟩).encode,
    .cleanupExpired quietEnv]

theorem acknowledged_kept_out_of_order :
    (run .dev (init 1400 0 false) outOfOrder).owed =
      [(U24.new 0, orderedFrame 1 [2]), (U24.new 1, orderedFrame 0 [1]),
        (U24.new 2, (orderedFrame 2 [5]).withSplit ⟨2, 0, 0⟩)] ∧
    ∀ x ∈ (run .dev (init 1400 0 false) outOfOrder).owed,
      (heldView (run .dev (init 1400 0 false) outOfOrder).conn).Kept x.2 := by
  refine ⟨by decide +kernel, acknowledged_kept .dev 1400 0 false outOfOrder ?_⟩
  refine ⟨fun _ => by decide +kernel, fun _ => by decide +kernel, trivial, fun _ => by decide +kernel, ?_, trivial⟩
  intro x _ info _ hexp
  have hnone : (run .dev (init 1400 0 false) (outOfOrder.take 4)).conn.shared.fragmentQueue.expired quietEnv.now = [] := by
    decide +kernel
  have hexp' : info.id.toNat ∈
      (run .dev (init 1400 0 false) (outOfOrder.take 4)).conn.shared.fragmentQueue.expired quietEnv.now := hexp
  rw [hnone] at hexp'
  cases hexp'

/-- a reliable frame that is not ordered -/
def reliableFrame (payload : Bytes) : Frame := (Frame.new .reliable payload).withMessageIndex (U24.new 0)

/-- a ping packet without its timestamp, and a reliable frame behind it -/
def pingThenData : List Op :=
  [.handleDatagram (fun _ => quietEnv) (U24.new 0) ((reliableFrame [0x00]).encode ++ (reliableFrame [1]).encode)]

/-- **An acknowledged frame that is lost.** Datagram 0 is recorded for an ACK; the handler of its first frame fails, so
the second frame, reliable and well-formed, is never handled: it is neither delivered nor held. -/
theorem failed_handler_loses_frame :
    (run .dev (init 1400 0 false) pingThenData).conn.shared.pendingAcks.Mem (U24.new 0) ∧
    (U24.new 0, reliableFrame [1]) ∈ (run .dev (init 1400 0 false) pingThenData).owed ∧
    ¬ (heldView (run .dev (init 1400 0 false) pingThenData).conn).Kept (reliableFrame [1]) := by
  have hacks : (run .dev (init 1400 0 false) pingThenData).conn.shared.pendingAcks =
      AckRangeList.new.insert (U24.new 0) := by decide +kernel
  have hdata : (run .dev (init 1400 0 false) pingThenData).conn.appData = [] := by decide +kernel
  refine ⟨?_, by decide +kernel, ?_⟩
  · rw [hacks, AckRangeList.mem_insert AckRangeList.inv_new]
    exact Or.inr rfl
  · rw [Held.kept_whole rfl]
    rintro (hd | ⟨ho, -⟩)
    · have hd' : [1] ∈ (run .dev (init 1400 0 false) pingThenData).conn.appData := hd
      rw [hdata] at hd'
      cases hd'
    · cases ho

end Receiver

end RakNet
