/-
How many bytes and how many entries an ordered channel and a fragment queue hold.

Nothing is made up: what an insertion hands out and what it leaves held is at most what was held before and the new payload.
Nothing grows past its limit either: a channel stays within its queue size, a fragment queue within its number of entries.

- `OrderedChannel.volume_insert`, `OrderedChannel.size_insert_le`.
- `FragmentQueue.volume_insert`, `FragmentQueue.size_insert_le`.
-/
import RakNet.Reliability.Fragment
import RakNet.Reliability.Ordered

namespace RakNet

open Lib Lib.Wire

/-- how many bytes a list of payloads has -/
def bytesOf (payloads : List Bytes) : Nat := (payloads.map List.length).sum

@[simp] theorem bytesOf_nil : bytesOf [] = 0 := rfl

@[simp] theorem bytesOf_cons (d : Bytes) (ds : List Bytes) : bytesOf (d :: ds) = d.length + bytesOf ds := by simp [bytesOf]

@[simp] theorem bytesOf_append (ds ds' : List Bytes) : bytesOf (ds ++ ds') = bytesOf ds + bytesOf ds' := by simp [bytesOf]

namespace OrderedChannel

/-- the bytes a channel holds -/
def volume (c : OrderedChannel) : Nat := NatMap.total List.length c.queue

@[simp] theorem volume_new : volume new = 0 := NatMap.total_empty _

/-- draining hands out what it takes out of the queue -/
theorem volume_drainLoop (n : Nat) (c : OrderedChannel) :
    bytesOf (drainLoop n c).1 + (drainLoop n c).2.volume = c.volume := by
  induction n generalizing c with
  | zero => simp [drainLoop]
  | succ n ih =>
    simp only [drainLoop]
    cases h : c.queue[c.nextIndex]? with
    | none => simp
    | some data =>
      have hrest := ih { c with queue := c.queue.erase c.nextIndex }.advance
      have htaken : data.length + volume { c with queue := c.queue.erase c.nextIndex }.advance = c.volume :=
        NatMap.total_erase List.length h
      dsimp only
      rw [bytesOf_cons]
      omega

/-- **What an insertion hands out and leaves queued** is no more than what was queued and the new payload. -/
theorem volume_insert (c : OrderedChannel) (i : Nat) (data : Bytes) :
    bytesOf (c.insert i data).1 + (c.insert i data).2.volume ≤ c.volume + data.length := by
  unfold insert
  split_ifs
  · have hdrain := volume_drainLoop c.advance.queue.size c.advance
    have hsame : c.advance.volume = c.volume := rfl
    dsimp only [drain]
    rw [bytesOf_cons]
    omega
  · have hstored : volume { c with queue := c.queue.insert i data } ≤ data.length + c.volume := by
      rw [volume, NatMap.total_insert]
      exact Nat.add_le_add_left (NatMap.total_erase_le _ _ _) _
    simp only [bytesOf_nil]
    omega
  · simp
  · simp

theorem maxQueueSize_drainLoop (n : Nat) (c : OrderedChannel) : (drainLoop n c).2.maxQueueSize = c.maxQueueSize := by
  induction n generalizing c with
  | zero => rfl
  | succ n ih =>
    simp only [drainLoop]
    cases c.queue[c.nextIndex]? with
    | none => rfl
    | some data => exact ih _

@[simp] theorem maxQueueSize_insert (c : OrderedChannel) (i : Nat) (data : Bytes) :
    (c.insert i data).2.maxQueueSize = c.maxQueueSize := by
  unfold insert
  split_ifs
  · exact maxQueueSize_drainLoop _ _
  · rfl
  · rfl
  · rfl

theorem size_drainLoop_le (n : Nat) (c : OrderedChannel) : (drainLoop n c).2.queue.size ≤ c.queue.size := by
  induction n generalizing c with
  | zero => exact le_refl _
  | succ n ih =>
    simp only [drainLoop]
    cases c.queue[c.nextIndex]? with
    | none => exact le_refl _
    | some data => exact (ih _).trans Std.ExtTreeMap.size_erase_le

/-- **A channel stays within its queue size.** -/
theorem size_insert_le {c : OrderedChannel} (h : c.queue.size ≤ c.maxQueueSize) (i : Nat) (data : Bytes) :
    (c.insert i data).2.queue.size ≤ c.maxQueueSize := by
  unfold insert
  split_ifs with hnext hahead hroom
  · exact (size_drainLoop_le _ _).trans h
  · have hsize : (c.queue.insert i data).size ≤ c.queue.size + 1 := Std.ExtTreeMap.size_insert_le
    exact hsize.trans hroom
  · exact h
  · exact h

end OrderedChannel

namespace FragmentQueue

/-- the bytes a fragment queue holds -/
def volume (q : FragmentQueue) : Nat := NatMap.total (fun e => NatMap.total List.length e.fragments) q.splits

@[simp] theorem volume_new : volume new = 0 := NatMap.total_empty _

theorem length_reassemble (fragments : NatMap Bytes) : (reassemble fragments).length = NatMap.total List.length fragments := by
  rw [reassemble, List.length_flatten, NatMap.total, List.map_map]
  rfl

/-- the entry of a split id and the rest of the queue -/
theorem volume_entryAt (q : FragmentQueue) (now id count : Nat) :
    NatMap.total List.length (q.entryAt now id count).fragments + volume { q with splits := q.splits.erase id } =
      q.volume := by
  unfold entryAt volume
  cases h : q.splits[id]? with
  | some e => exact NatMap.total_erase (fun e => NatMap.total List.length e.fragments) h
  | none =>
    dsimp only
    rw [NatMap.total_empty, NatMap.erase_of_none h, Nat.zero_add]

/-- **What an insertion completes and leaves held** is no more than what was held and the new payload. -/
theorem volume_insert (q : FragmentQueue) (now id index count : Nat) (data : Bytes) :
    bytesOf (q.insert now id index count data).1.toList + (q.insert now id index count data).2.volume ≤
      q.volume + data.length := by
  have hentry := q.volume_entryAt now id count
  have hgrown : NatMap.total List.length ((q.entryAt now id count).fragments.insert index data) ≤
      data.length + NatMap.total List.length (q.entryAt now id count).fragments := by
    rw [NatMap.total_insert]
    exact Nat.add_le_add_left (NatMap.total_erase_le _ _ _) _
  rcases q.insert_cases now id index count data with ⟨-, he⟩ | ⟨-, -, -, he⟩ | ⟨-, -, -, -, he⟩ | ⟨-, -, -, -, -, he⟩ |
    ⟨-, -, -, -, -, he⟩ <;> rw [he]
  · simp
  · simp only [Option.toList_none, bytesOf_nil]
    omega
  · simp
  · simp only [Option.toList_some, bytesOf_cons, bytesOf_nil, length_reassemble]
    omega
  · have hstored : volume { q with splits := q.splits.insert id { q.entryAt now id count with
          fragments := (q.entryAt now id count).fragments.insert index data } } =
        NatMap.total List.length ((q.entryAt now id count).fragments.insert index data) +
          volume { q with splits := q.splits.erase id } := NatMap.total_insert _ _ _ _
    dsimp only at hstored
    simp only [Option.toList_none, bytesOf_nil]
    omega

theorem volume_cleanupExpired (q : FragmentQueue) (now : Nat) : (q.cleanupExpired now).2.volume ≤ q.volume :=
  NatMap.total_eraseAll_le _ _ _

/-- **A fragment queue stays within its number of entries.** -/
theorem size_insert_le {q : FragmentQueue} (h : q.splits.size ≤ q.maxConcurrent) (now id index count : Nat) (data : Bytes) :
    (q.insert now id index count data).2.splits.size ≤ q.maxConcurrent := by
  rcases q.insert_cases now id index count data with ⟨-, he⟩ | ⟨-, -, -, he⟩ | ⟨-, -, -, -, he⟩ | ⟨-, -, -, -, -, he⟩ |
    ⟨-, hadmits, -, -, -, he⟩ <;> rw [he]
  · exact h
  · exact Std.ExtTreeMap.size_erase_le.trans h
  · exact h
  · exact Std.ExtTreeMap.size_erase_le.trans h
  · -- a new entry needs room, and one that is there takes none
    dsimp only
    rw [Std.ExtTreeMap.size_insert]
    unfold admits at hadmits
    simp only [Bool.or_eq_true, decide_eq_true_eq] at hadmits
    split_ifs with hmem
    · exact h
    · rcases hadmits with hroom | hcontains
      · exact hroom
      · exact absurd (Std.ExtTreeMap.contains_iff_mem.1 hcontains) hmem

theorem size_cleanupExpired_le (q : FragmentQueue) (now : Nat) : (q.cleanupExpired now).2.splits.size ≤ q.splits.size :=
  NatMap.size_eraseAll_le _ _

end FragmentQueue

end RakNet
