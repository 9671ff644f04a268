/-
The accounts of the send queue over whole runs.

A `Ledger` is a queue together with what its callers can know of it: for every number the packet last inserted for it, if
that insertion was taken and no acknowledgement has named the number since, and how many packets `get_expired` has returned.
Numbers are inserted only while they are not in the queue.

- `step_accounted`: every operation keeps the accounts, by one lemma for each.
- `send_queue_accounted`: the accounts hold in every state of every run.
-/
import RakNet.Lib.Machine
import RakNet.Reliability.Acknowledging
import RakNet.Reliability.Expired

namespace RakNet

open Lib Lib.Wire

/-- `SendQueueStats` -/
structure SendQueueStats where
  totalSent : Nat
  totalAcked : Nat
  totalRetransmitted : Nat
  currentQueueSize : Nat
  maxSize : Nat
deriving DecidableEq

namespace SendQueue

/-- `is_full` -/
def isFull (q : SendQueue) : Bool := decide (q.maxSize ≤ q.packets.size)

/-- an insertion is refused exactly when the queue is full, and then changes nothing -/
theorem insert_isFull (q : SendQueue) (now seq : Nat) (packet : Bytes) :
    (q.insert now seq packet).1 = !q.isFull ∧
      ((q.insert now seq packet).1 = false → (q.insert now seq packet).2 = q) := by
  rcases insert_cases q now seq packet with ⟨hfull, he⟩ | ⟨hroom, htaken, -, -⟩
  · have hyes : q.isFull = true := decide_eq_true hfull
    rw [he, hyes]
    exact ⟨rfl, fun _ => rfl⟩
  · have hno : q.isFull = false := decide_eq_false (Nat.not_le.2 hroom)
    rw [htaken, hno]
    exact ⟨rfl, fun hc => by cases hc⟩

/-- `stats` -/
def stats (q : SendQueue) : SendQueueStats where
  totalSent := q.totalSent
  totalAcked := q.totalAcked
  totalRetransmitted := q.totalRetransmitted
  currentQueueSize := q.packets.size
  maxSize := q.maxSize

/-- the operations that change a queue -/
inductive Op where
  | insert (now seq : Nat) (packet : Bytes)
  | acknowledge (seq : Nat)
  | acknowledgeRange (start last : Nat)
  | getExpired (now rtt timeoutMultiplier : Nat)

structure Ledger where
  queue : SendQueue
  /-- the packet inserted for a number and not acknowledged since -/
  held : Nat → Option Bytes
  /-- packets returned by `get_expired` -/
  returned : Nat

namespace Ledger

def init (maxSize : Nat) : Ledger := ⟨withCapacity maxSize, fun _ => none, 0⟩

/-- one operation; a `get_expired` that panics has changed nothing -/
def step (t : Ledger) : Op → Ledger
  | .insert now seq packet =>
    let (taken, q) := t.queue.insert now seq packet
    { t with queue := q, held := fun s => if taken ∧ s = seq then some packet else t.held s }
  | .acknowledge seq =>
    { t with queue := (t.queue.acknowledge seq).2, held := fun s => if s = seq then none else t.held s }
  | .acknowledgeRange start last =>
    { t with
      queue := (t.queue.acknowledgeRange start last).2
      held := fun s => if seqInRange s start last then none else t.held s }
  | .getExpired now rtt timeoutMultiplier =>
    match t.queue.getExpiredChecked now rtt timeoutMultiplier with
    | .ok (expired, q) => { t with queue := q, returned := t.returned + expired.length }
    | _ => t

/-- a number is inserted only while it is not in the queue -/
def Fresh (t : Ledger) : Op → Prop
  | .insert _ seq _ => t.queue.contains seq = false
  | _ => True

instance (t : Ledger) : (op : Op) → Decidable (t.Fresh op)
  | .insert _ seq _ => inferInstanceAs (Decidable (t.queue.contains seq = false))
  | .acknowledge _ | .acknowledgeRange _ _ | .getExpired _ _ _ => inferInstanceAs (Decidable True)

/-- the accounts of a queue of this size -/
structure Accounted (maxSize : Nat) (t : Ledger) : Prop where
  /-- exactly the numbers held, each with its packet -/
  packets : ∀ s, t.queue.packet? s = t.held s
  /-- the length is `total_sent - total_acked` -/
  length : t.queue.stats.totalAcked + t.queue.len = t.queue.stats.totalSent
  capacity : t.queue.stats.maxSize = maxSize
  len_le : t.queue.len ≤ maxSize
  returned : t.queue.stats.totalRetransmitted = t.returned

/-! ## One operation -/

theorem accounted_init (maxSize : Nat) : (init maxSize).Accounted maxSize :=
  ⟨fun s => by simp [init, packet?, withCapacity], rfl, rfl, Nat.zero_le _, rfl⟩

theorem Accounted.insert {maxSize : Nat} {t : Ledger} (h : t.Accounted maxSize) (now : Nat) {seq : Nat} (packet : Bytes)
    (hnew : t.queue.contains seq = false) : (t.step (.insert now seq packet)).Accounted maxSize := by
  have hmax : t.queue.maxSize = maxSize := h.capacity
  have hnone : t.queue.packet? seq = none := by
    rw [← Option.not_isSome_iff_eq_none, Option.isSome_iff_exists, ← contains_iff, hnew]
    exact Bool.false_ne_true
  rcases insert_cases t.queue now seq packet with ⟨-, he⟩ | ⟨hroom, htaken, -, hpacket⟩
  · simp only [step, he, Bool.false_eq_true, false_and, if_false]
    exact h
  · have hlen := len_insert now packet hroom hnone
    have hsent : (t.queue.insert now seq packet).2.totalSent = t.queue.totalSent + 1 ∧
        (t.queue.insert now seq packet).2.totalAcked = t.queue.totalAcked ∧
        (t.queue.insert now seq packet).2.totalRetransmitted = t.queue.totalRetransmitted := by
      have hnot : ¬ t.queue.maxSize ≤ t.queue.packets.size := Nat.not_le.2 hroom
      unfold SendQueue.insert
      rw [if_neg hnot]
      exact ⟨rfl, rfl, rfl⟩
    have hold := h.length
    simp only [stats] at hold
    refine ⟨?_, ?_, (maxSize_insert _ _ _ _).trans hmax, ?_, hsent.2.2.trans h.returned⟩
    · intro s
      simp only [step, htaken, true_and]
      rw [hpacket, h.packets]
    · simp only [step, stats, hlen, hsent.1, hsent.2.1]
      omega
    · simp only [step, hlen]
      omega

/-- an acknowledgement, of one number or of a range -/
theorem Accounted.removes {maxSize : Nat} {t : Ledger} (h : t.Accounted maxSize) {q : SendQueue} {p : Nat → Bool}
    (hrem : Removes t.queue q p) :
    Accounted maxSize { t with queue := q, held := fun s => if p s then none else t.held s } := by
  have hold := h.length
  have hsize := hrem.size
  simp only [stats] at hold
  refine ⟨?_, ?_, hrem.maxSize.trans h.capacity, hrem.len_le.trans h.len_le, hrem.totalRetransmitted.trans h.returned⟩
  · intro s
    have hs := h.packets s
    simp only [packet?] at hs ⊢
    rw [hrem.entries, ← hs]
    split_ifs <;> rfl
  · simp only [stats, hrem.totalSent]
    omega

theorem Accounted.getExpired {maxSize : Nat} {t : Ledger} (h : t.Accounted maxSize) (now rtt mult : Nat) :
    (t.step (.getExpired now rtt mult)).Accounted maxSize := by
  by_cases hfit : rtt * mult < durationLimit
  · simp only [step, getExpiredChecked_of_fits _ now hfit]
    have hlen : (t.queue.getExpired now rtt mult).2.len = t.queue.len := len_getExpired _ _ _ _
    refine ⟨?_, ?_, h.capacity, ?_, ?_⟩
    · intro s
      rw [packet?_getExpired]
      exact h.packets s
    · rw [hlen]
      exact h.length
    · rw [hlen]
      exact h.len_le
    · have hret := h.returned
      simp only [stats, SendQueue.getExpired, List.length_map] at hret ⊢
      rw [hret]
  · have hpanic : t.queue.getExpiredChecked now rtt mult = .panic := by
      rw [getExpiredChecked, durationMul, if_neg hfit]
      rfl
    simp only [step, hpanic]
    exact h

theorem step_accounted {maxSize : Nat} (t : Ledger) (op : Op) (h : t.Accounted maxSize) (hop : t.Fresh op) :
    (t.step op).Accounted maxSize := by
  cases op with
  | insert now seq packet => exact h.insert now packet hop
  | acknowledge seq =>
    have hrem := h.removes (t.queue.removes_acknowledge seq)
    simp only [beq_iff_eq] at hrem
    exact hrem
  | acknowledgeRange start last => exact h.removes (t.queue.removes_acknowledgeRange start last).1
  | getExpired now rtt mult => exact h.getExpired now rtt mult

/-! ## Whole runs -/

/-- the queue is full at its size, and not before -/
theorem Accounted.isFull_iff {maxSize : Nat} {t : Ledger} (h : t.Accounted maxSize) :
    t.queue.isFull = true ↔ t.queue.len = maxSize := by
  have hle := h.len_le
  have hmax : t.queue.maxSize = maxSize := h.capacity
  rw [isFull, decide_eq_true_eq, hmax]
  exact ⟨fun hfull => Nat.le_antisymm hle hfull, fun heq => heq.ge⟩

/-- an insertion is refused exactly when the length is the size, and then changes nothing -/
theorem Accounted.refuses {maxSize : Nat} {t : Ledger} (h : t.Accounted maxSize) (now seq : Nat) (packet : Bytes) :
    ((t.queue.insert now seq packet).1 = false ↔ t.queue.len = maxSize) ∧
      ((t.queue.insert now seq packet).1 = false → (t.queue.insert now seq packet).2 = t.queue) := by
  obtain ⟨hanswer, hsame⟩ := insert_isFull t.queue now seq packet
  refine ⟨?_, hsame⟩
  rw [hanswer, Bool.not_eq_false', h.isFull_iff]

/-- **The send queue keeps its accounts.** In every run of insertions of numbers not in the queue, acknowledgements, range
acknowledgements and expiry calls from an empty queue: the queue holds exactly the numbers taken and not acknowledged since,
each with the packet last inserted for it; its length is `total_sent - total_acked` and at most `max_size`; an insertion is
refused exactly when the length is `max_size`, and then changes nothing; and `total_retransmitted` is the number of packets
returned by `get_expired`. -/
theorem send_queue_accounted (maxSize : Nat) (ops : List Op) (hops : Machine.Steps step Fresh (init maxSize) ops) :
    (Machine.run step (init maxSize) ops).Accounted maxSize ∧
    ∀ now seq packet,
      (((Machine.run step (init maxSize) ops).queue.insert now seq packet).1 = false ↔
        (Machine.run step (init maxSize) ops).queue.len = maxSize) ∧
      (((Machine.run step (init maxSize) ops).queue.insert now seq packet).1 = false →
        ((Machine.run step (init maxSize) ops).queue.insert now seq packet).2 =
          (Machine.run step (init maxSize) ops).queue) := by
  have h : (Machine.run step (init maxSize) ops).Accounted maxSize :=
    Machine.run_inv_of_steps step_accounted (accounted_init maxSize) hops
  exact ⟨h, h.refuses⟩

/-- a queue of two that is filled, acknowledged over the wrap, and resent -/
theorem send_queue_accounted_two :
    (Machine.run step (init 2) [.insert 0 0xFFFFFF [1], .insert 0 3 [2], .insert 0 4 [3], .acknowledgeRange 0xFFFFFE 0,
      .getExpired 100 10 3]).queue.len = 1 := by
  have hops : Machine.Steps step Fresh (init 2) [.insert 0 0xFFFFFF [1], .insert 0 3 [2], .insert 0 4 [3],
      .acknowledgeRange 0xFFFFFE 0, .getExpired 100 10 3] :=
    ⟨by decide +kernel, by decide +kernel, by decide +kernel, trivial, trivial, trivial⟩
  have h := (send_queue_accounted 2 _ hops).1.length
  have hsent : (Machine.run step (init 2) [.insert 0 0xFFFFFF [1], .insert 0 3 [2], .insert 0 4 [3],
      .acknowledgeRange 0xFFFFFE 0, .getExpired 100 10 3]).queue.stats.totalSent = 2 := by decide +kernel
  have hacked : (Machine.run step (init 2) [.insert 0 0xFFFFFF [1], .insert 0 3 [2], .insert 0 4 [3],
      .acknowledgeRange 0xFFFFFE 0, .getExpired 100 10 3]).queue.stats.totalAcked = 1 := by decide +kernel
  omega

end Ledger

end SendQueue

end RakNet
