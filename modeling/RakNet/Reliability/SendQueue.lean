/-
The send queue (`src/reliability/send_queue.rs`): packets sent and not yet acknowledged, by sequence number.

`Instant`s and `Duration`s are nanoseconds; `Instant::now()` is an argument. The counters of `stats` are `u64` and are
natural numbers here.

- `insert_cases`: an insertion into a full queue is refused and changes nothing; otherwise the key holds the packet.
- `packet?_getExpired`: taking the expired packets changes no key and no packet.
- `Removes q q' p`: the entries of `q` whose numbers meet `p` are gone in `q'`, all others are there as they were, and
  `total_acked` has grown by as many. Removals compose, and two removals of the same numbers leave the same queue.
- `removes_acknowledge`, `removes_acknowledgeRange`: both acknowledgements are removals.
-/
import RakNet.Lib.NatMap
import RakNet.Lib.Wire
import RakNet.Protocol.UInt24

namespace RakNet

open Lib Lib.Wire

/-- an entry of the send queue -/
structure QueueEntry where
  packet : Bytes
  lastSendTime : Nat
  retryCount : Nat
deriving DecidableEq, Repr

structure SendQueue where
  packets : NatMap QueueEntry
  maxSize : Nat
  totalSent : Nat
  totalAcked : Nat
  totalRetransmitted : Nat

namespace SendQueue

def withCapacity (maxSize : Nat) : SendQueue := ⟨∅, maxSize, 0, 0, 0⟩

def new : SendQueue := withCapacity 2048

/-- `insert`: false when the queue is full -/
def insert (q : SendQueue) (now seq : Nat) (packet : Bytes) : Bool × SendQueue :=
  if q.maxSize ≤ q.packets.size then (false, q)
  else (true, { q with packets := q.packets.insert seq ⟨packet, now, 0⟩, totalSent := q.totalSent + 1 })

def acknowledge (q : SendQueue) (seq : Nat) : Option Bytes × SendQueue :=
  match q.packets[seq]? with
  | none => (none, q)
  | some entry => (some entry.packet, { q with packets := q.packets.erase seq, totalAcked := q.totalAcked + 1 })

/-- remove the collected keys one by one, counting them -/
def removeKeys (q : SendQueue) (keys : List Nat) : Nat × SendQueue :=
  (keys.length, { q with packets := q.packets.eraseAll keys, totalAcked := q.totalAcked + keys.length })

/-- the keys of the queue that meet a test, in increasing order -/
def keysWhere (q : SendQueue) (test : Nat → Bool) : List Nat := (q.packets.toList.map Prod.fst).filter test

def acknowledgeRange (q : SendQueue) (start last : Nat) : Nat × SendQueue :=
  if start ≤ last then q.removeKeys (q.keysWhere fun s => decide (start ≤ s) && decide (s ≤ last))
  else q.removeKeys (q.keysWhere (fun s => decide (start ≤ s)) ++ q.keysWhere fun s => decide (s ≤ last))

/-- has this entry waited longer than the timeout -/
def isExpired (now timeout : Nat) (entry : QueueEntry) : Bool := decide (timeout < now - entry.lastSendTime)

/-- the entry after a retransmission; `retry_count` saturates at 255 -/
def retransmitted (now : Nat) (entry : QueueEntry) : QueueEntry :=
  { entry with lastSendTime := now, retryCount := min (entry.retryCount + 1) 255 }

/-- `get_expired`: the entries past the timeout, in order, and the queue with them marked as resent -/
def getExpired (q : SendQueue) (now rtt timeoutMultiplier : Nat) : List (Nat × Bytes) × SendQueue :=
  let expired := q.packets.toList.filter fun e => isExpired now (rtt * timeoutMultiplier) e.2
  (expired.map fun e => (e.1, e.2.packet),
    { q with
      packets := q.packets.insertAll (expired.map fun e => (e.1, retransmitted now e.2))
      totalRetransmitted := q.totalRetransmitted + expired.length })

def contains (q : SendQueue) (seq : Nat) : Bool := q.packets.contains seq

def len (q : SendQueue) : Nat := q.packets.size

/-- the bytes kept for a sequence number -/
def packet? (q : SendQueue) (seq : Nat) : Option Bytes := q.packets[seq]?.map QueueEntry.packet

/-! ## What each operation does to the keys and the packets -/

theorem packet?_new (seq : Nat) : new.packet? seq = none := by simp [packet?, new, withCapacity]

theorem contains_iff (q : SendQueue) (seq : Nat) : q.contains seq = true ↔ ∃ b, q.packet? seq = some b := by
  rw [contains, NatMap.contains_eq, Option.isSome_iff_exists]
  simp only [packet?, Option.map_eq_some_iff]
  exact ⟨fun ⟨e, h⟩ => ⟨e.packet, e, h, rfl⟩, fun ⟨_, e, h, _⟩ => ⟨e, h⟩⟩

/-- **Insertion.** Refused with nothing changed when the queue is full. -/
theorem insert_cases (q : SendQueue) (now seq : Nat) (packet : Bytes) :
    (q.maxSize ≤ q.len ∧ q.insert now seq packet = (false, q)) ∨
    (q.len < q.maxSize ∧ (q.insert now seq packet).1 = true ∧ (q.insert now seq packet).2.maxSize = q.maxSize ∧
      ∀ s, (q.insert now seq packet).2.packet? s = if s = seq then some packet else q.packet? s) := by
  unfold insert len
  split_ifs with h
  · exact Or.inl ⟨h, rfl⟩
  · refine Or.inr ⟨by omega, rfl, rfl, ?_⟩
    intro s
    simp only [packet?, NatMap.get?_insert]
    by_cases hs : s = seq
    · simp [hs]
    · simp [hs, Ne.symm hs]

/-- a new key makes the queue one longer -/
theorem len_insert {q : SendQueue} (now : Nat) {seq : Nat} (packet : Bytes) (hlen : q.len < q.maxSize)
    (hnew : q.packet? seq = none) : (q.insert now seq packet).2.len = q.len + 1 := by
  have hnone : q.packets[seq]? = none := Option.map_eq_none_iff.1 hnew
  unfold insert len at *
  rw [if_neg (Nat.not_le.2 hlen)]
  exact NatMap.size_insert_of_none _ hnone

@[simp] theorem maxSize_insert (q : SendQueue) (now seq : Nat) (packet : Bytes) :
    (q.insert now seq packet).2.maxSize = q.maxSize := by
  unfold insert
  split_ifs <;> rfl

theorem len_insert_le (q : SendQueue) (now seq : Nat) (packet : Bytes) :
    (q.insert now seq packet).2.len ≤ q.len + 1 := by
  unfold insert len
  split_ifs
  · exact Nat.le_succ _
  · exact Std.ExtTreeMap.size_insert_le

theorem packet?_insert_of_ne (q : SendQueue) (now : Nat) {seq s : Nat} (packet : Bytes) (h : s ≠ seq) :
    (q.insert now seq packet).2.packet? s = q.packet? s := by
  rcases insert_cases q now seq packet with ⟨-, hq⟩ | ⟨-, -, -, hq⟩
  · rw [hq]
  · rw [hq, if_neg h]

theorem packet?_insert_self {q : SendQueue} (now seq : Nat) (packet : Bytes) (h : q.len < q.maxSize) :
    (q.insert now seq packet).2.packet? seq = some packet := by
  rcases insert_cases q now seq packet with ⟨hfull, -⟩ | ⟨-, -, -, hq⟩
  · exact absurd h (Nat.not_lt.2 hfull)
  · rw [hq, if_pos rfl]

/-- numbers that are inserted in order fill the queue from below, and the ones past its size are refused -/
theorem insert_next {q : SendQueue} {m : Nat} (hlen : q.len = min m q.maxSize)
    (hkeys : ∀ s, q.contains s = true ↔ s < min m q.maxSize) (now : Nat) (packet : Bytes) :
    (q.insert now m packet).2.len = min (m + 1) q.maxSize ∧
      ∀ s, (q.insert now m packet).2.contains s = true ↔ s < min (m + 1) q.maxSize := by
  rcases insert_cases q now m packet with ⟨hfull, hq⟩ | ⟨hroom, -, -, hq⟩
  · have hmin : min (m + 1) q.maxSize = min m q.maxSize := by omega
    rw [hq, hmin]
    exact ⟨hlen, hkeys⟩
  · -- the new number is past every key
    have hnew : q.packet? m = none := by
      by_contra hne
      have hold := (hkeys m).1 ((contains_iff q m).2 (Option.ne_none_iff_exists'.1 hne))
      omega
    refine ⟨by rw [len_insert now packet hroom hnew]; omega, ?_⟩
    intro s
    rw [contains_iff, hq]
    by_cases hs : s = m
    · simp only [hs, if_true, Option.some.injEq, exists_eq', true_iff]
      omega
    · rw [if_neg hs, ← contains_iff, hkeys]
      omega

theorem mem_keysWhere (q : SendQueue) (test : Nat → Bool) (s : Nat) :
    s ∈ q.keysWhere test ↔ (∃ e, q.packets[s]? = some e) ∧ test s = true := by
  simp only [keysWhere, List.mem_filter, List.mem_map, Prod.exists, exists_and_right, exists_eq_right,
    NatMap.mem_toList]

/-- the entries after a retransmission: the expired ones are marked, the others are as they were -/
theorem entries_getExpired (q : SendQueue) (now rtt mult s : Nat) :
    (q.getExpired now rtt mult).2.packets[s]? = q.packets[s]?.map fun e =>
      if isExpired now (rtt * mult) e then retransmitted now e else e := by
  simp only [getExpired]
  set expired := q.packets.toList.filter fun e => isExpired now (rtt * mult) e.2 with hexp
  have hnd : ((expired.map fun e => (e.1, retransmitted now e.2)).map Prod.fst).Nodup := by
    rw [List.map_map]
    exact (q.packets.nodup_keys.sublist ((List.filter_sublist).map Prod.fst))
  have hmem : ∀ e, (s, e) ∈ expired ↔ q.packets[s]? = some e ∧ isExpired now (rtt * mult) e = true := by
    intro e
    rw [hexp, List.mem_filter, NatMap.mem_toList]
  by_cases hin : ∃ e, (s, e) ∈ expired
  · obtain ⟨e, he⟩ := hin
    obtain ⟨hs, hold⟩ := (hmem e).1 he
    have hnew : (s, retransmitted now e) ∈ expired.map fun e => (e.1, retransmitted now e.2) :=
      List.mem_map.2 ⟨(s, e), he, rfl⟩
    rw [NatMap.getElem?_insertAll_of_mem _ hnd hnew, hs, Option.map_some, if_pos hold]
  · have hnot : ∀ v, (s, v) ∉ expired.map fun e => (e.1, retransmitted now e.2) := by
      intro v hv
      obtain ⟨⟨k, e⟩, he, heq⟩ := List.mem_map.1 hv
      cases heq
      exact hin ⟨e, he⟩
    rw [NatMap.getElem?_insertAll_of_not_mem _ _ hnot]
    cases hs : q.packets[s]? with
    | none => rfl
    | some e => rw [Option.map_some, if_neg fun hold => hin ⟨e, (hmem e).2 ⟨hs, hold⟩⟩]

/-- **Retransmission.** No key and no packet changes. -/
theorem packet?_getExpired (q : SendQueue) (now rtt mult s : Nat) :
    (q.getExpired now rtt mult).2.packet? s = q.packet? s := by
  rw [packet?, packet?, entries_getExpired, Option.map_map]
  congr 1
  funext e
  by_cases hold : isExpired now (rtt * mult) e = true
  · simp [hold, retransmitted]
  · simp [hold]

theorem len_getExpired (q : SendQueue) (now rtt mult : Nat) : (q.getExpired now rtt mult).2.len = q.len := by
  apply NatMap.size_insertAll
  intro e he
  obtain ⟨e0, hmem, rfl⟩ := List.mem_map.1 he
  exact ⟨e0.2, (NatMap.mem_toList _ _ _).1 (List.mem_filter.1 hmem).1⟩

theorem contains_getExpired (q : SendQueue) (now rtt mult s : Nat) :
    (q.getExpired now rtt mult).2.contains s = true ↔ q.contains s = true := by
  rw [contains_iff, packet?_getExpired, ← contains_iff]

/-- the packets handed out for retransmission are packets of the queue -/
theorem mem_getExpired {q : SendQueue} {now rtt mult s : Nat} {b : Bytes} (h : (s, b) ∈ (q.getExpired now rtt mult).1) :
    q.packet? s = some b := by
  simp only [getExpired, List.mem_map, Prod.mk.injEq] at h
  obtain ⟨⟨k, e⟩, he, rfl, rfl⟩ := h
  rw [packet?, (NatMap.mem_toList _ _ _).1 (List.mem_filter.1 he).1]
  rfl

/-! ## Acknowledgements as removals -/

/-- the entries whose numbers meet `p` are removed and counted -/
structure Removes (q q' : SendQueue) (p : Nat → Bool) : Prop where
  entries : ∀ s : Nat, q'.packets[s]? = if p s then none else q.packets[s]?
  size : q'.totalAcked + q'.len = q.totalAcked + q.len
  maxSize : q'.maxSize = q.maxSize
  totalSent : q'.totalSent = q.totalSent
  totalRetransmitted : q'.totalRetransmitted = q.totalRetransmitted

theorem Removes.refl (q : SendQueue) {p : Nat → Bool} (hp : ∀ s, p s = false) : Removes q q p :=
  ⟨fun s => by simp [hp s], rfl, rfl, rfl, rfl⟩

theorem Removes.trans {q q' q'' : SendQueue} {p p' : Nat → Bool} (h : Removes q q' p) (h' : Removes q' q'' p') :
    Removes q q'' fun s => p s || p' s where
  entries := by
    intro s
    rw [h'.entries, h.entries]
    cases p s <;> cases p' s <;> rfl
  size := h'.size.trans h.size
  maxSize := h'.maxSize.trans h.maxSize
  totalSent := h'.totalSent.trans h.totalSent
  totalRetransmitted := h'.totalRetransmitted.trans h.totalRetransmitted

/-- `total_acked` grows by the number of entries removed -/
theorem Removes.acked {q q' : SendQueue} {p : Nat → Bool} (h : Removes q q' p) :
    q'.totalAcked = q.totalAcked + (q.packets.toList.filter fun e => p e.1).length := by
  have hsize := h.size
  have hleft := NatMap.size_of_removed h.entries
  unfold len at hsize
  omega

theorem Removes.packet? {q q' : SendQueue} {p : Nat → Bool} (h : Removes q q' p) (s : Nat) :
    q'.packet? s = if p s then none else q.packet? s := by
  unfold SendQueue.packet?
  rw [h.entries]
  split_ifs <;> rfl

theorem Removes.len_le {q q' : SendQueue} {p : Nat → Bool} (h : Removes q q' p) : q'.len ≤ q.len := by
  have hleft := NatMap.size_of_removed h.entries
  unfold len
  omega

theorem Removes.congr {q q' : SendQueue} {p p' : Nat → Bool} (h : Removes q q' p)
    (hp : ∀ (s : Nat) e, q.packets[s]? = some e → p s = p' s) : Removes q q' p' := by
  refine ⟨?_, h.size, h.maxSize, h.totalSent, h.totalRetransmitted⟩
  intro s
  rw [h.entries]
  cases hs : q.packets[s]? with
  | none => simp
  | some e => rw [hp s e hs]

/-- what is removed decides what is left -/
theorem Removes.unique {q a b : SendQueue} {p : Nat → Bool} (ha : Removes q a p) (hb : Removes q b p) : a = b := by
  have hpackets : a.packets = b.packets := NatMap.eq_of_getElem? fun s => by rw [ha.entries, hb.entries]
  have hlen : a.len = b.len := congrArg Std.ExtTreeMap.size hpackets
  have hsa := ha.size
  have hsb := hb.size
  obtain ⟨pa, ma, sa, ka, ra⟩ := a
  obtain ⟨pb, mb, sb, kb, rb⟩ := b
  have hm : ma = mb := ha.maxSize.trans hb.maxSize.symm
  have hs : sa = sb := ha.totalSent.trans hb.totalSent.symm
  have hr : ra = rb := ha.totalRetransmitted.trans hb.totalRetransmitted.symm
  have hk : ka = kb := by
    dsimp only at hsa hsb
    omega
  subst hm hs hr hk
  congr 1

theorem removes_acknowledge (q : SendQueue) (seq : Nat) : Removes q (q.acknowledge seq).2 (· == seq) := by
  unfold acknowledge
  cases h : q.packets[seq]? with
  | none =>
    refine ⟨?_, rfl, rfl, rfl, rfl⟩
    intro s
    by_cases hs : s = seq
    · simp [hs, h]
    · simp [hs]
  | some entry =>
    have hsize := NatMap.size_erase_of_some h
    refine ⟨?_, ?_, rfl, rfl, rfl⟩
    · intro s
      rw [NatMap.get?_erase]
      exact if_congr (by rw [beq_iff_eq, eq_comm]) rfl rfl
    · unfold len
      dsimp only
      omega

/-- the number of removed entries, against what is left -/
theorem acknowledge_count (q : SendQueue) (seq : Nat) :
    (if (q.acknowledge seq).1.isSome then 1 else 0) + (q.acknowledge seq).2.len = q.len := by
  unfold acknowledge
  cases h : q.packets[seq]? with
  | none => simp
  | some entry =>
    have hsize := NatMap.size_erase_of_some h
    unfold len
    simp only [Option.isSome_some, if_true]
    omega

/-- distinct keys of the queue -/
theorem removes_removeKeys {q : SendQueue} {keys : List Nat} (hd : keys.Nodup)
    (hkeys : ∀ k ∈ keys, ∃ e, q.packets[k]? = some e) :
    Removes q (q.removeKeys keys).2 (fun s => decide (s ∈ keys)) ∧
      (q.removeKeys keys).1 + (q.removeKeys keys).2.len = q.len := by
  have hsize := NatMap.size_eraseAll hd hkeys
  refine ⟨⟨?_, ?_, rfl, rfl, rfl⟩, ?_⟩
  · intro s
    simp only [removeKeys, NatMap.getElem?_eraseAll, decide_eq_true_eq]
  · simp only [removeKeys, len]
    omega
  · simp only [removeKeys, len]
    omega

theorem nodup_keysWhere (q : SendQueue) (test : Nat → Bool) : (q.keysWhere test).Nodup :=
  q.packets.nodup_keys.filter test

theorem decide_mem_keysWhere {q : SendQueue} {s : Nat} {e : QueueEntry} (hs : q.packets[s]? = some e)
    (test : Nat → Bool) : decide (s ∈ q.keysWhere test) = test s := by
  rw [Bool.eq_iff_iff, decide_eq_true_eq, mem_keysWhere]
  exact and_iff_right ⟨e, hs⟩

/-- a range acknowledgement removes the numbers of the range and counts them -/
theorem removes_acknowledgeRange (q : SendQueue) (start last : Nat) :
    Removes q (q.acknowledgeRange start last).2 (fun s => seqInRange s start last) ∧
      (q.acknowledgeRange start last).1 + (q.acknowledgeRange start last).2.len = q.len := by
  have hpresent : ∀ test, ∀ k ∈ q.keysWhere test, ∃ e, q.packets[k]? = some e := fun test k hk =>
    ((q.mem_keysWhere test k).1 hk).1
  by_cases hle : start ≤ last
  · have hrange : ∀ s, seqInRange s start last = (decide (start ≤ s) && decide (s ≤ last)) := fun s => if_pos hle
    obtain ⟨hrem, hcount⟩ := removes_removeKeys (q.nodup_keysWhere fun s => decide (start ≤ s) && decide (s ≤ last))
      (hpresent _)
    rw [acknowledgeRange, if_pos hle]
    refine ⟨hrem.congr ?_, hcount⟩
    intro s e hs
    rw [decide_mem_keysWhere hs, hrange]
  · -- the two parts of a wrapped range have no number in common
    have hrange : ∀ s, seqInRange s start last = (decide (start ≤ s) || decide (s ≤ last)) := fun s => if_neg hle
    have hdisj : (q.keysWhere fun s => decide (start ≤ s)).Disjoint (q.keysWhere fun s => decide (s ≤ last)) := by
      intro s hhigh hlow
      have h1 := of_decide_eq_true ((q.mem_keysWhere _ s).1 hhigh).2
      have h2 := of_decide_eq_true ((q.mem_keysWhere _ s).1 hlow).2
      omega
    obtain ⟨hrem, hcount⟩ := removes_removeKeys
      (List.nodup_append'.2 ⟨q.nodup_keysWhere _, q.nodup_keysWhere _, hdisj⟩)
      (fun k hk => (List.mem_append.1 hk).elim (hpresent _ k) (hpresent _ k))
    rw [acknowledgeRange, if_neg hle]
    refine ⟨hrem.congr ?_, hcount⟩
    intro s e hs
    rw [hrange, ← decide_mem_keysWhere hs fun s => decide (start ≤ s),
      ← decide_mem_keysWhere hs fun s => decide (s ≤ last), ← Bool.decide_or]
    exact decide_eq_decide.2 List.mem_append

end SendQueue

end RakNet
