/-
Ordered channels (`src/reliability/ordered.rs`): packets are handed out in the order of their index, later ones wait.

- `insert_cases`: the four things an insertion can do.
- `drain_complete`: the draining loop stops only at an index that is not queued.
- `drain_keeps`: whatever the loop takes out of the queue it hands out.
- `Resting.insert`: between two insertions a channel never has the packet it waits for.
- `Drained.removed`: what the loop removes is what it hands out, in order.
- `Synced.insert`: a channel with nothing queued hands out the packet it waits for, and nothing else.
- `Follows.insert`: a channel that is fed the packets of a list by their positions hands out the list, in any order of
  arrival.
- `inserted_in_order`: what any insertions into a fresh channel hand out, what they leave queued, and what they drop.
-/
import RakNet.Lib.Machine
import RakNet.Lib.NatMap
import RakNet.Lib.Wire
import RakNet.Protocol.UInt24

namespace RakNet

open Lib Lib.Wire

structure OrderedChannel where
  nextIndex : Nat
  queue : NatMap Bytes
  maxQueueSize : Nat

namespace OrderedChannel

def new : OrderedChannel := ⟨0, ∅, 256⟩

/-- one past the next index, as a `u32` -/
def advance (c : OrderedChannel) : OrderedChannel := { c with nextIndex := wrappingAdd c.nextIndex 1 }

/-- `while let Some(data) = self.queue.remove(&self.next_index)`; every round removes an entry, so the size of the queue
bounds the rounds (`drain_complete`) -/
def drainLoop : Nat → OrderedChannel → List Bytes × OrderedChannel
  | 0, c => ([], c)
  | fuel + 1, c =>
    match c.queue[c.nextIndex]? with
    | none => ([], c)
    | some data =>
      let (ready, c') := drainLoop fuel { c with queue := c.queue.erase c.nextIndex }.advance
      (data :: ready, c')

def drain (c : OrderedChannel) : List Bytes × OrderedChannel := drainLoop c.queue.size c

/-- `insert`: the packets now ready, in order -/
def insert (c : OrderedChannel) (orderIndex : Nat) (data : Bytes) : List Bytes × OrderedChannel :=
  if orderIndex = c.nextIndex then
    let (ready, c') := c.advance.drain
    (data :: ready, c')
  else if c.nextIndex < orderIndex then
    if c.queue.size < c.maxQueueSize then ([], { c with queue := c.queue.insert orderIndex data }) else ([], c)
  else ([], c)

/-! ## Draining -/

/-- the loop stops only where the next index is not queued -/
theorem drainLoop_complete (n : Nat) (c : OrderedChannel) (hn : c.queue.size ≤ n) :
    (drainLoop n c).2.queue[(drainLoop n c).2.nextIndex]? = none := by
  induction n generalizing c with
  | zero =>
    have h0 : c.queue = ∅ := Std.ExtTreeMap.eq_empty_iff_size_eq_zero.2 (Nat.le_zero.1 hn)
    simp [drainLoop, h0]
  | succ n ih =>
    simp only [drainLoop]
    cases h : c.queue[c.nextIndex]? with
    | none => exact h
    | some data =>
      have hsize := NatMap.size_erase_of_some h
      exact ih _ (by simp only [advance]; omega)

theorem drain_complete (c : OrderedChannel) : c.drain.2.queue[c.drain.2.nextIndex]? = none :=
  drainLoop_complete _ c (le_refl _)

/-- the loop hands out what it removes -/
theorem drainLoop_keeps (n : Nat) (c : OrderedChannel) {k : Nat} {d : Bytes} (hk : c.queue[k]? = some d) :
    (drainLoop n c).2.queue[k]? = some d ∨ d ∈ (drainLoop n c).1 := by
  induction n generalizing c with
  | zero => exact Or.inl hk
  | succ n ih =>
    simp only [drainLoop]
    cases h : c.queue[c.nextIndex]? with
    | none => exact Or.inl hk
    | some data =>
      by_cases he : c.nextIndex = k
      · subst he
        rw [h] at hk
        cases hk
        exact Or.inr List.mem_cons_self
      · have hk' : (c.queue.erase c.nextIndex)[k]? = some d := by rw [NatMap.get?_erase, if_neg he, hk]
        rcases ih { c with queue := c.queue.erase c.nextIndex }.advance hk' with hq | hd
        · exact Or.inl hq
        · exact Or.inr (List.mem_cons_of_mem _ hd)

theorem drain_keeps (c : OrderedChannel) {k : Nat} {d : Bytes} (h : c.queue[k]? = some d) :
    c.drain.2.queue[k]? = some d ∨ d ∈ c.drain.1 := drainLoop_keeps _ c h

/-- nothing queued at the next index, nothing to drain -/
theorem drain_of_none {c : OrderedChannel} (h : c.queue[c.nextIndex]? = none) : c.drain = ([], c) := by
  unfold drain
  cases c.queue.size with
  | zero => rfl
  | succ n => simp only [drainLoop, h]

/-- a queue that has the next index hands something out -/
theorem drain_eq_nil_iff (c : OrderedChannel) : c.drain.1 = [] ↔ c.queue[c.nextIndex]? = none := by
  constructor
  · intro h
    cases hq : c.queue[c.nextIndex]? with
    | none => rfl
    | some data =>
      rcases c.drain_keeps hq with hkept | hready
      · unfold drain at h hkept
        have hsize := NatMap.size_erase_of_some hq
        cases hn : c.queue.size with
        | zero => omega
        | succ n => simp [hn, drainLoop, hq] at h
      · rw [h] at hready
        cases hready
  · intro h
    rw [drain_of_none h]

/-- a channel whose indices do not wrap: what is queued is at or past the next index, all below 2^24 -/
structure Bounded (c : OrderedChannel) : Prop where
  next : c.nextIndex ≤ 2 ^ 24
  queue : ∀ (k : Nat) d, c.queue[k]? = some d → c.nextIndex ≤ k ∧ k < 2 ^ 24

theorem Bounded.nextIndex_advance {c : OrderedChannel} (h : c.Bounded) : c.advance.nextIndex = c.nextIndex + 1 := by
  have hnext := h.next
  show wrappingAdd c.nextIndex 1 = c.nextIndex + 1
  rw [wrappingAdd]
  omega

/-- a channel that has nothing queued at its next index can move past it -/
theorem Bounded.past {c : OrderedChannel} (h : c.Bounded) (hlt : c.nextIndex < 2 ^ 24)
    (hidle : c.queue[c.nextIndex]? = none) : c.advance.Bounded := by
  have hnext := h.nextIndex_advance
  refine ⟨by omega, ?_⟩
  intro k d hk
  have hq := h.queue k d hk
  have hne : k ≠ c.nextIndex := by
    rintro rfl
    rw [advance, hidle] at hk
    cases hk
  omega

/-- one round of the loop: the packet at the next index leaves the queue -/
theorem Bounded.round {c : OrderedChannel} (h : c.Bounded) {data : Bytes} (hd : c.queue[c.nextIndex]? = some data) :
    ({ c with queue := c.queue.erase c.nextIndex } : OrderedChannel).advance.Bounded := by
  have hlt := (h.queue _ _ hd).2
  have hnext : (OrderedChannel.advance { c with queue := c.queue.erase c.nextIndex }).nextIndex = c.nextIndex + 1 :=
    h.nextIndex_advance
  refine ⟨by omega, ?_⟩
  intro k d hk
  rw [hnext]
  simp only [advance, NatMap.get?_erase] at hk
  split_ifs at hk with hne
  have hq := h.queue k d hk
  omega

/-- what the loop hands out and what it leaves -/
structure Drained (c : OrderedChannel) (ready : List Bytes) (c' : OrderedChannel) : Prop where
  bounded : c'.Bounded
  limit : c'.maxQueueSize = c.maxQueueSize
  next : c.nextIndex ≤ c'.nextIndex
  size : c'.queue.size ≤ c.queue.size
  /-- the packets from the next index on come out, in order -/
  ready : ready.map some = (List.range' c.nextIndex (c'.nextIndex - c.nextIndex)).map (c.queue[·]?)
  /-- and those past them stay -/
  queue : ∀ (k : Nat) d, c'.queue[k]? = some d ↔ c.queue[k]? = some d ∧ c'.nextIndex ≤ k

theorem Bounded.undrained {c : OrderedChannel} (h : c.Bounded) : Drained c [] c := by
  refine ⟨h, rfl, le_refl _, le_refl _, by simp, ?_⟩
  intro k d
  exact ⟨fun hk => ⟨hk, (h.queue k d hk).1⟩, fun hk => hk.1⟩

/-- one more round in front -/
theorem Drained.cons {c c' : OrderedChannel} {data : Bytes} {ready : List Bytes} (h : c.Bounded)
    (hd : c.queue[c.nextIndex]? = some data)
    (hrest : Drained (advance { c with queue := c.queue.erase c.nextIndex }) ready c') : Drained c (data :: ready) c' := by
  have hnext : (advance { c with queue := c.queue.erase c.nextIndex }).nextIndex = c.nextIndex + 1 := h.nextIndex_advance
  have hle := hrest.next
  have hsize := hrest.size
  have herase := NatMap.size_erase_of_some hd
  rw [hnext] at hle
  refine ⟨hrest.bounded, hrest.limit, by omega, ?_, ?_, ?_⟩
  · simp only [advance] at hsize
    omega
  · have hready := hrest.ready
    rw [hnext] at hready
    have hlen : c'.nextIndex - c.nextIndex = c'.nextIndex - (c.nextIndex + 1) + 1 := by omega
    rw [hlen, List.range'_succ, List.map_cons, List.map_cons, hd, hready]
    congr 1
    apply List.map_congr_left
    intro k hk
    have hk' := (List.mem_range'_1.1 hk).1
    simp only [advance, NatMap.get?_erase]
    rw [if_neg (by omega)]
  · intro k d
    rw [hrest.queue]
    simp only [advance, NatMap.get?_erase]
    constructor
    · rintro ⟨hk, hge⟩
      split_ifs at hk
      exact ⟨hk, hge⟩
    · rintro ⟨hk, hge⟩
      rw [if_neg (by omega)]
      exact ⟨hk, hge⟩

/-- **The draining loop** of a channel whose indices do not wrap. -/
theorem Bounded.drainLoop {c : OrderedChannel} (h : c.Bounded) (n : Nat) :
    Drained c (drainLoop n c).1 (drainLoop n c).2 := by
  induction n generalizing c with
  | zero => exact h.undrained
  | succ n ih =>
    simp only [OrderedChannel.drainLoop]
    cases hd : c.queue[c.nextIndex]? with
    | none => exact h.undrained
    | some data => exact .cons h hd (ih (h.round hd))

theorem Bounded.drain {c : OrderedChannel} (h : c.Bounded) : Drained c c.drain.1 c.drain.2 := h.drainLoop _

/-! ## Insertion -/

/-- **The four things an insertion can do**: hand out, queue, drop for lack of room, ignore as old. -/
theorem insert_cases (c : OrderedChannel) (i : Nat) (data : Bytes) :
    (i = c.nextIndex ∧ c.insert i data = (data :: c.advance.drain.1, c.advance.drain.2)) ∨
    (c.nextIndex < i ∧ c.queue.size < c.maxQueueSize ∧
      c.insert i data = ([], { c with queue := c.queue.insert i data })) ∨
    (c.nextIndex < i ∧ c.maxQueueSize ≤ c.queue.size ∧ c.insert i data = ([], c)) ∨
    (i < c.nextIndex ∧ c.insert i data = ([], c)) := by
  unfold insert
  split_ifs with h1 h2 h3
  · exact Or.inl ⟨h1, rfl⟩
  · exact Or.inr (Or.inl ⟨h2, h3, rfl⟩)
  · exact Or.inr (Or.inr (Or.inl ⟨h2, by omega, rfl⟩))
  · exact Or.inr (Or.inr (Or.inr ⟨by omega, rfl⟩))

/-- an index past the next one hands nothing out and does not move the channel -/
theorem insert_ahead {chan : OrderedChannel} {i : Nat} (h : chan.nextIndex < i) (data : Bytes) :
    (chan.insert i data).1 = [] ∧ (chan.insert i data).2.nextIndex = chan.nextIndex := by
  rcases chan.insert_cases i data with ⟨he, -⟩ | ⟨-, -, he⟩ | ⟨-, -, he⟩ | ⟨hlt, -⟩
  · omega
  · rw [he]
    exact ⟨rfl, rfl⟩
  · rw [he]
    exact ⟨rfl, rfl⟩
  · omega

/-- an index before the next one is ignored -/
theorem insert_behind {chan : OrderedChannel} {i : Nat} (h : i < chan.nextIndex) (data : Bytes) :
    chan.insert i data = ([], chan) := by
  rcases chan.insert_cases i data with ⟨he, -⟩ | ⟨hlt, -⟩ | ⟨hlt, -⟩ | ⟨-, he⟩
  · omega
  · omega
  · omega
  · exact he

/-! ## A channel at rest -/

/-- a channel between two insertions: its indices do not wrap, and it does not have the packet it waits for -/
structure Resting (c : OrderedChannel) : Prop where
  bounded : c.Bounded
  idle : c.queue[c.nextIndex]? = none

theorem resting_new : Resting new := by
  refine ⟨⟨Nat.zero_le _, ?_⟩, NatMap.get?_empty 0⟩
  intro k d hk
  rw [new, NatMap.get?_empty] at hk
  cases hk

/-- the loop after an insertion of the next packet -/
theorem Resting.drained {c : OrderedChannel} (h : c.Resting) (hlt : c.nextIndex < 2 ^ 24) :
    Drained c.advance c.advance.drain.1 c.advance.drain.2 := (h.bounded.past hlt h.idle).drain

/-- **An insertion leaves the channel at rest.** -/
theorem Resting.insert {c : OrderedChannel} (h : c.Resting) {i : Nat} (hi : i < 2 ^ 24) (data : Bytes) :
    (c.insert i data).2.Resting := by
  rcases c.insert_cases i data with ⟨rfl, he⟩ | ⟨hlt, -, he⟩ | ⟨-, -, he⟩ | ⟨-, he⟩
  · rw [he]
    exact ⟨(h.drained hi).bounded, c.advance.drain_complete⟩
  · rw [he]
    refine ⟨⟨h.bounded.next, ?_⟩, ?_⟩
    · exact NatMap.forall_insert ⟨le_of_lt hlt, hi⟩ h.bounded.queue
    · dsimp only
      rw [NatMap.get?_insert, if_neg (by omega)]
      exact h.idle
  · rw [he]
    exact h
  · rw [he]
    exact h

/-! ## What leaves the queue -/

/-- the payloads of one queue that are no longer in another, in order -/
def removed (before after : OrderedChannel) : List Bytes :=
  (before.queue.toList.filter fun e => after.queue[e.1]? != some e.2).map Prod.snd

theorem removed_eq_nil_iff (before after : OrderedChannel) :
    removed before after = [] ↔ ∀ (k : Nat) d, before.queue[k]? = some d → after.queue[k]? = some d := by
  unfold removed
  rw [List.map_eq_nil_iff, List.filter_eq_nil_iff]
  constructor
  · intro h k d hk
    have hkept := h (k, d) ((NatMap.mem_toList _ _ _).2 hk)
    simpa using hkept
  · rintro h ⟨k, d⟩ hmem
    rw [h k d ((NatMap.mem_toList _ _ _).1 hmem)]
    simp

/-- **The loop** removes what it hands out. -/
theorem Drained.removed {c c' : OrderedChannel} {ready : List Bytes} (h : c.Bounded) (hd : Drained c ready c') :
    removed c c' = ready := by
  have hselect : ∀ (k : Nat) d, c.queue[k]? = some d →
      ((c'.queue[k]? != some d) = true ↔ k ∈ List.range' c.nextIndex (c'.nextIndex - c.nextIndex)) := by
    intro k d hk
    have hge := (h.queue k d hk).1
    have hkept := hd.queue k d
    rw [bne_iff_ne, ne_eq, hkept, List.mem_range'_1]
    constructor
    · intro hne
      have hlt : k < c'.nextIndex := by
        by_contra hle
        exact hne ⟨hk, by omega⟩
      omega
    · rintro ⟨-, hlt⟩ ⟨-, hle⟩
      omega
  calc OrderedChannel.removed c c'
      = (List.range' c.nextIndex (c'.nextIndex - c.nextIndex)).filterMap (c.queue[·]?) :=
        NatMap.filter_values List.pairwise_lt_range' hselect
    _ = (ready.map some).filterMap id := by rw [hd.ready, List.filterMap_map]; rfl
    _ = ready := by rw [List.filterMap_map]; exact List.filterMap_some

/-! ## A channel in step -/

/-- a channel that has handed out `w` messages and holds none -/
structure Synced (w : Nat) (chan : OrderedChannel) : Prop where
  next : chan.nextIndex = w
  queue : chan.queue = ∅

theorem synced_new : Synced 0 new := ⟨rfl, rfl⟩

theorem Synced.insert {chan : OrderedChannel} {w : Nat} (h : Synced w chan) (hw : w < 2 ^ 24) (data : Bytes) :
    (chan.insert w data).1 = [data] ∧ Synced (w + 1) (chan.insert w data).2 := by
  have hnone : chan.advance.queue[chan.advance.nextIndex]? = none := by
    rw [OrderedChannel.advance, h.queue, NatMap.get?_empty]
  rcases chan.insert_cases w data with ⟨-, he⟩ | ⟨hlt, -⟩ | ⟨hlt, -⟩ | ⟨hlt, -⟩
  · rw [he, OrderedChannel.drain_of_none hnone]
    refine ⟨rfl, ?_, h.queue⟩
    show wrappingAdd chan.nextIndex 1 = w + 1
    rw [h.next, wrappingAdd]
    omega
  all_goals
    rw [h.next] at hlt
    omega

/-! ## A channel that follows a list -/

/-- the channel waits for a position up to `j` of the list, and whatever it has queued for such a position is the packet
that stands there, before `j` -/
structure Follows (msgs : List Bytes) (j : Nat) (chan : OrderedChannel) : Prop where
  next : chan.nextIndex ≤ j
  queue : ∀ (k : Nat) d, chan.queue[k]? = some d → k ≤ j → k < j ∧ msgs[k]? = some d

theorem follows_new (msgs : List Bytes) (j : Nat) : Follows msgs j new := by
  refine ⟨Nat.zero_le j, ?_⟩
  intro k d hk
  rw [new, NatMap.get?_empty] at hk
  cases hk

/-- the next packet of the list moves the channel by one -/
theorem Follows.advance {msgs : List Bytes} {j : Nat} {chan : OrderedChannel} (h : Follows msgs j chan) (hj : j < 2 ^ 32)
    {d : Bytes} (hd : chan.nextIndex < j ∧ msgs[chan.nextIndex]? = some d) :
    Follows msgs j chan.advance ∧ msgs.take chan.nextIndex ++ [d] = msgs.take chan.advance.nextIndex := by
  have hnext : chan.advance.nextIndex = chan.nextIndex + 1 := by
    show wrappingAdd chan.nextIndex 1 = chan.nextIndex + 1
    rw [wrappingAdd]
    omega
  refine ⟨⟨by omega, h.queue⟩, ?_⟩
  rw [hnext, List.take_add_one, hd.2]
  rfl

theorem Follows.drainLoop {msgs : List Bytes} {j : Nat} (hj : j < 2 ^ 32) (n : Nat) {chan : OrderedChannel}
    (h : Follows msgs j chan) :
    Follows msgs j (drainLoop n chan).2 ∧
      msgs.take chan.nextIndex ++ (drainLoop n chan).1 = msgs.take (drainLoop n chan).2.nextIndex := by
  induction n generalizing chan with
  | zero => exact ⟨h, List.append_nil _⟩
  | succ n ih =>
    simp only [OrderedChannel.drainLoop]
    cases hd : chan.queue[chan.nextIndex]? with
    | none => exact ⟨h, List.append_nil _⟩
    | some d =>
      have herased : Follows msgs j { chan with queue := chan.queue.erase chan.nextIndex } := by
        refine ⟨h.next, ?_⟩
        intro k d' hk
        dsimp only at hk
        rw [NatMap.get?_erase] at hk
        split_ifs at hk
        exact h.queue k d' hk
      obtain ⟨hadv, htake⟩ := herased.advance hj (h.queue _ d hd h.next)
      obtain ⟨hrest, hout⟩ := ih hadv
      refine ⟨hrest, ?_⟩
      dsimp only at htake
      rw [← hout, ← htake, List.append_assoc]
      rfl

/-- **A packet of the list**, wherever it stands: what is handed out continues the list. -/
theorem Follows.insert {msgs : List Bytes} {j : Nat} {chan : OrderedChannel} (h : Follows msgs j chan) (hj : j < 2 ^ 32)
    {i : Nat} {d : Bytes} (hd : i ≤ j → i < j ∧ msgs[i]? = some d) :
    Follows msgs j (chan.insert i d).2 ∧
      msgs.take chan.nextIndex ++ (chan.insert i d).1 = msgs.take (chan.insert i d).2.nextIndex := by
  rcases chan.insert_cases i d with ⟨rfl, he⟩ | ⟨-, -, he⟩ | ⟨-, -, he⟩ | ⟨-, he⟩ <;> rw [he]
  · obtain ⟨hadv, htake⟩ := h.advance hj (hd h.next)
    obtain ⟨hrest, hout⟩ := hadv.drainLoop hj chan.advance.queue.size
    refine ⟨hrest, ?_⟩
    rw [List.append_cons, htake]
    exact hout
  · exact ⟨⟨h.next, NatMap.forall_insert hd h.queue⟩, List.append_nil _⟩
  · exact ⟨h, List.append_nil _⟩
  · exact ⟨h, List.append_nil _⟩

/-! ## Runs of insertions -/

/-- a channel with what it has handed out so far and the indices that came while its queue had room -/
structure Fed where
  channel : OrderedChannel
  ready : List Bytes
  roomy : List Nat

def Fed.init : Fed := ⟨new, [], []⟩

def Fed.step (payload : Nat → Bytes) (s : Fed) (i : Nat) : Fed :=
  { channel := (s.channel.insert i (payload i)).2
    ready := s.ready ++ (s.channel.insert i (payload i)).1
    roomy := if s.channel.queue.size < 256 then s.roomy ++ [i] else s.roomy }

def Fed.run (payload : Nat → Bytes) (is : List Nat) : Fed := Machine.run (Fed.step payload) .init is

/-- a prefix was handed out, what is queued comes after it, and nothing that found room was lost -/
structure Fed.InOrder (payload : Nat → Bytes) (s : Fed) : Prop where
  ready : s.ready = (List.range s.channel.nextIndex).map payload
  size : s.channel.queue.size ≤ 256
  queue : ∀ (k : Nat) d, s.channel.queue[k]? = some d → s.channel.nextIndex < k ∧ d = payload k
  roomy : ∀ i ∈ s.roomy, i < s.channel.nextIndex ∨ s.channel.queue[i]? = some (payload i)

/-- the invariant of a run: in order, and no index ever wraps -/
structure Fed.Inv (payload : Nat → Bytes) (s : Fed) : Prop extends s.InOrder payload where
  limit : s.channel.maxQueueSize = 256
  bounded : s.channel.Bounded

theorem Fed.inv_init (payload : Nat → Bytes) : Fed.init.Inv payload := by
  have hempty : ∀ (k : Nat) d, Fed.init.channel.queue[k]? ≠ some d := by
    intro k d hk
    rw [Fed.init, new, NatMap.get?_empty] at hk
    cases hk
  refine ⟨⟨rfl, Nat.zero_le _, ?_, ?_⟩, rfl, Nat.zero_le _, ?_⟩
  · intro k d hk
    exact absurd hk (hempty k d)
  · intro i hi
    cases hi
  · intro k d hk
    exact absurd hk (hempty k d)

theorem Fed.step_eq {payload : Nat → Bytes} {s : Fed} {i : Nat} {ready : List Bytes} {channel : OrderedChannel}
    (h : s.channel.insert i (payload i) = (ready, channel)) :
    s.step payload i = ⟨channel, s.ready ++ ready, (s.step payload i).roomy⟩ := by
  rw [step, h]

/-- the indices that found room, after one more insertion -/
theorem Fed.roomy_step (payload : Nat → Bytes) {s : Fed} {i j : Nat} (hj : j ∈ (s.step payload i).roomy) :
    j ∈ s.roomy ∨ j = i ∧ s.channel.queue.size < 256 := by
  simp only [Fed.step] at hj
  split_ifs at hj with hsize
  · rcases List.mem_append.1 hj with hj | hj
    · exact Or.inl hj
    · exact Or.inr ⟨List.mem_singleton.1 hj, hsize⟩
  · exact Or.inl hj

/-- a list of lookups that all succeed is the list of what they find -/
theorem ready_eq {payload : Nat → Bytes} {queue : NatMap Bytes} (hq : ∀ (k : Nat) d, queue[k]? = some d → d = payload k)
    {ready : List Bytes} {ks : List Nat} (h : ready.map some = ks.map (queue[·]?)) : ready = ks.map payload := by
  induction ks generalizing ready with
  | nil => exact List.map_eq_nil_iff.1 h
  | cons k ks ih =>
    rw [List.map_cons] at h
    obtain ⟨d, rest, rfl, hd, hrest⟩ := List.map_eq_cons_iff.1 h
    rw [List.map_cons, ih hrest, hq k d hd.symm]

/-- the index waited for is not queued -/
theorem Fed.InOrder.idle {payload : Nat → Bytes} {s : Fed} (h : s.InOrder payload) :
    s.channel.queue[s.channel.nextIndex]? = none := by
  cases hq : s.channel.queue[s.channel.nextIndex]? with
  | none => rfl
  | some d => exact absurd (h.queue _ d hq).1 (Nat.lt_irrefl _)

/-- the index waited for: it comes out with all that it held back -/
theorem Fed.Inv.release {payload : Nat → Bytes} {s : Fed} (h : s.Inv payload) (hlt : s.channel.nextIndex < 2 ^ 24)
    (hstep : s.channel.insert s.channel.nextIndex (payload s.channel.nextIndex) =
      (payload s.channel.nextIndex :: s.channel.advance.drain.1, s.channel.advance.drain.2)) :
    (s.step payload s.channel.nextIndex).Inv payload := by
  have hnext := h.bounded.nextIndex_advance
  have hadv : s.channel.advance.Bounded := h.bounded.past hlt h.idle
  have hd := hadv.drain
  have hle := hd.next
  have hdrained : s.channel.advance.drain.1 =
      (List.range' (s.channel.nextIndex + 1) (s.channel.advance.drain.2.nextIndex - (s.channel.nextIndex + 1))).map
        payload := by
    have hpayload : ∀ (k : Nat) d, s.channel.queue[k]? = some d → d = payload k := fun k d hk => (h.queue k d hk).2
    apply ready_eq hpayload
    rw [hd.ready, hnext]
    rfl
  rw [Fed.step_eq hstep]
  refine ⟨⟨?_, le_trans hd.size h.size, ?_, ?_⟩, hd.limit.trans h.limit, hd.bounded⟩
  · generalize hk : s.channel.advance.drain.2.nextIndex - (s.channel.nextIndex + 1) = k at hdrained
    have hend : s.channel.nextIndex + (k + 1) = s.channel.advance.drain.2.nextIndex := by omega
    calc s.ready ++ payload s.channel.nextIndex :: s.channel.advance.drain.1
        = (List.range' 0 s.channel.nextIndex ++ List.range' s.channel.nextIndex (k + 1)).map payload := by
          rw [h.ready, hdrained, List.range'_succ, List.map_append, List.map_cons, List.range_eq_range']
      _ = (List.range' 0 (s.channel.nextIndex + (k + 1))).map payload := by
          rw [← List.range'_append_1 (m := s.channel.nextIndex) (n := k + 1), Nat.zero_add]
      _ = (List.range s.channel.advance.drain.2.nextIndex).map payload := by
          rw [hend, List.range_eq_range']
  · intro k d hk
    obtain ⟨hq, hge⟩ := (hd.queue k d).1 hk
    -- the loop stopped at an index that is not queued
    have hne : s.channel.advance.drain.2.nextIndex ≠ k := by
      intro he
      have hnone := s.channel.advance.drain_complete
      rw [he, hk] at hnone
      cases hnone
    exact ⟨by dsimp only; omega, (h.queue k d hq).2⟩
  · intro j hj
    dsimp only
    rcases Fed.roomy_step payload hj with hj | ⟨rfl, -⟩
    · rcases h.roomy j hj with hlt' | hq
      · exact Or.inl (by omega)
      · by_cases hj' : j < s.channel.advance.drain.2.nextIndex
        · exact Or.inl hj'
        · exact Or.inr ((hd.queue j _).2 ⟨hq, by omega⟩)
    · exact Or.inl (by omega)

/-- a later index that finds room is queued -/
theorem Fed.Inv.wait {payload : Nat → Bytes} {s : Fed} (h : s.Inv payload) {i : Nat} (hi : i < 2 ^ 24)
    (hlt : s.channel.nextIndex < i) (hroom : s.channel.queue.size < s.channel.maxQueueSize)
    (hstep : s.channel.insert i (payload i) = ([], { s.channel with queue := s.channel.queue.insert i (payload i) })) :
    (s.step payload i).Inv payload := by
  rw [Fed.step_eq hstep]
  refine ⟨⟨?_, ?_, NatMap.forall_insert ⟨hlt, rfl⟩ h.queue, ?_⟩, h.limit, h.bounded.next,
    NatMap.forall_insert ⟨le_of_lt hlt, hi⟩ h.bounded.queue⟩
  · rw [List.append_nil]
    exact h.ready
  · have hsize := Std.ExtTreeMap.size_insert_le (t := s.channel.queue) (k := i) (v := payload i)
    have hlimit := h.limit
    dsimp only
    omega
  · intro j hj
    dsimp only
    rw [NatMap.get?_insert]
    by_cases hij : i = j
    · exact Or.inr (by rw [if_pos hij, hij])
    · rw [if_neg hij]
      rcases Fed.roomy_step payload hj with hj | ⟨he, -⟩
      · exact h.roomy j hj
      · exact absurd he.symm hij

/-- an index the channel ignores: it is old, or there was no room for it -/
theorem Fed.Inv.ignore {payload : Nat → Bytes} {s : Fed} (h : s.Inv payload) {i : Nat}
    (hi : i < s.channel.nextIndex ∨ s.channel.maxQueueSize ≤ s.channel.queue.size)
    (hstep : s.channel.insert i (payload i) = ([], s.channel)) : (s.step payload i).Inv payload := by
  rw [Fed.step_eq hstep, List.append_nil]
  refine ⟨⟨h.ready, h.size, h.queue, ?_⟩, h.limit, h.bounded⟩
  intro j hj
  have hlimit := h.limit
  rcases Fed.roomy_step payload hj with hj | ⟨rfl, hroom⟩
  · exact h.roomy j hj
  · exact Or.inl (by dsimp only; omega)

theorem Fed.Inv.step {payload : Nat → Bytes} {s : Fed} (h : s.Inv payload) {i : Nat} (hi : i < 2 ^ 24) :
    (s.step payload i).Inv payload := by
  rcases s.channel.insert_cases i (payload i) with ⟨rfl, he⟩ | ⟨hlt, hroom, he⟩ | ⟨-, hfull, he⟩ | ⟨hold, he⟩
  · exact h.release hi he
  · exact h.wait hi hlt hroom he
  · exact h.ignore (Or.inr hfull) he
  · exact h.ignore (Or.inl hold) he

/-- if everything before `n` found room, everything before `n` was handed out -/
theorem Fed.InOrder.delivered {payload : Nat → Bytes} {s : Fed} (h : s.InOrder payload) {n : Nat}
    (hn : ∀ i < n, i ∈ s.roomy) : (List.range n).map payload <+: s.ready := by
  have hle : n ≤ s.channel.nextIndex := by
    by_contra hlt
    -- the index waited for is neither before itself nor queued
    rcases h.roomy _ (hn s.channel.nextIndex (by omega)) with hself | hq
    · omega
    · have hgt := (h.queue _ _ hq).1
      omega
  rw [h.ready, ← Nat.add_sub_cancel' hle, List.range_add, List.map_append]
  exact List.prefix_append _ _

/-- **Any insertions into a fresh channel**, indices below 2^24 in any order and with any repetitions: the packets come
out in order, once and without gaps. -/
theorem inserted_in_order (payload : Nat → Bytes) (is : List Nat) (h : ∀ i ∈ is, i < 2 ^ 24) :
    (Fed.run payload is).InOrder payload ∧
      ∀ n, (∀ i < n, i ∈ (Fed.run payload is).roomy) → (List.range n).map payload <+: (Fed.run payload is).ready := by
  have hinv : (Fed.run payload is).Inv payload :=
    Machine.run_inv_of_mem (fun _ _ hs hi => hs.step hi) (Fed.inv_init payload) h
  refine ⟨hinv.toInOrder, ?_⟩
  intro n hn
  exact hinv.toInOrder.delivered hn

/-- four arrivals, one of them twice: all three packets come out -/
theorem inserted_in_order_four :
    (∀ i ∈ [2, 0, 1, 1], i < 2 ^ 24) ∧ [[0], [1], [2]] <+: (Fed.run (fun i => [UInt8.ofNat i]) [2, 0, 1, 1]).ready := by
  have hlt : ∀ i ∈ [2, 0, 1, 1], i < 2 ^ 24 := by decide
  have hroomy : (Fed.run (fun i => [UInt8.ofNat i]) [2, 0, 1, 1]).roomy = [2, 0, 1, 1] := by decide +kernel
  refine ⟨hlt, (inserted_in_order (fun i => [UInt8.ofNat i]) [2, 0, 1, 1] hlt).2 3 ?_⟩
  rw [hroomy]
  decide

end OrderedChannel

end RakNet
