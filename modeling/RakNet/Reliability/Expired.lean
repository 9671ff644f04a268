/-
`get_expired` as a partition of the send queue.

The timeout is `rtt * timeout_multiplier`, a multiplication of a `Duration`, which panics where the product has more than
2^64 - 1 seconds. `getExpiredChecked` has that panic; on every other input it is `getExpired`.

- `mem_getExpired_iff`, `sorted_getExpired`: the entries returned, and their order.
- `getExpired_again`: a second call at the same time finds nothing.
- `get_expired_partitions`: the whole effect of a call whose timeout is a `Duration`.
-/
import RakNet.Error
import RakNet.Reliability.SendQueue

namespace RakNet

open Lib Lib.Wire

/-- a `Duration` has fewer nanoseconds than this -/
def durationLimit : Nat := 2 ^ 64 * 10 ^ 9

/-- `Duration * u32`: "overflow when multiplying duration by scalar" -/
def durationMul (duration factor : Nat) : Result Nat :=
  if duration * factor < durationLimit then .ok (duration * factor) else .panic

namespace SendQueue

/-- `get_expired` with the multiplication that can panic -/
def getExpiredChecked (q : SendQueue) (now rtt timeoutMultiplier : Nat) : Result (List (Nat × Bytes) × SendQueue) := do
  let _timeout ← durationMul rtt timeoutMultiplier
  return q.getExpired now rtt timeoutMultiplier

theorem getExpiredChecked_of_fits (q : SendQueue) (now : Nat) {rtt mult : Nat} (h : rtt * mult < durationLimit) :
    q.getExpiredChecked now rtt mult = .ok (q.getExpired now rtt mult) := by
  rw [getExpiredChecked, durationMul, if_pos h]
  rfl

/-- the entries returned are the ones past the timeout -/
theorem mem_getExpired_iff (q : SendQueue) (now rtt mult s : Nat) (b : Bytes) :
    (s, b) ∈ (q.getExpired now rtt mult).1 ↔
      ∃ e, q.packets[s]? = some e ∧ e.packet = b ∧ rtt * mult < now - e.lastSendTime := by
  simp only [getExpired, List.mem_map, List.mem_filter, isExpired, decide_eq_true_eq]
  constructor
  · rintro ⟨⟨k, e⟩, ⟨hmem, hold⟩, heq⟩
    cases heq
    exact ⟨e, (NatMap.mem_toList _ _ _).1 hmem, rfl, hold⟩
  · rintro ⟨e, hs, rfl, hold⟩
    exact ⟨(s, e), ⟨(NatMap.mem_toList _ _ _).2 hs, hold⟩, rfl⟩

theorem sorted_getExpired (q : SendQueue) (now rtt mult : Nat) :
    (q.getExpired now rtt mult).1.Pairwise fun a b => a.1 < b.1 :=
  List.pairwise_map.2 (q.packets.sorted_toList.filter _)

/-- a call that finds nothing changes nothing -/
theorem getExpired_of_none {q : SendQueue} {now rtt mult : Nat}
    (h : ∀ (s : Nat) e, q.packets[s]? = some e → ¬ rtt * mult < now - e.lastSendTime) :
    q.getExpired now rtt mult = ([], q) := by
  have hnone : (q.packets.toList.filter fun e => isExpired now (rtt * mult) e.2) = [] := by
    rw [List.filter_eq_nil_iff]
    rintro ⟨s, e⟩ hmem
    rw [isExpired, decide_eq_true_eq]
    exact h s e ((NatMap.mem_toList _ _ _).1 hmem)
  simp only [getExpired, hnone]
  rfl

/-- an entry that was marked is of age zero, and one that was not is no older than the timeout -/
theorem getExpired_again (q : SendQueue) (now rtt mult : Nat) :
    (q.getExpired now rtt mult).2.getExpired now rtt mult = ([], (q.getExpired now rtt mult).2) := by
  apply getExpired_of_none
  intro s e hs
  rw [entries_getExpired] at hs
  obtain ⟨e0, -, rfl⟩ := Option.map_eq_some_iff.1 hs
  by_cases hold : isExpired now (rtt * mult) e0 = true
  · rw [if_pos hold, retransmitted, Nat.sub_self]
    exact Nat.not_lt_zero _
  · rw [if_neg hold]
    exact fun hlt => hold (decide_eq_true hlt)

/-- **`get_expired` partitions the queue.** For every queue, clock, round-trip time and multiplier whose product is a
`Duration`: the call returns the entries older than the product, in strictly increasing order; it marks these as sent now
and counts a retry, up to 255; every other entry, all packets, the keys, `total_sent` and `total_acked` stay; and the same call
right after returns nothing and changes nothing. -/
theorem get_expired_partitions (q : SendQueue) (now rtt mult : Nat) (hfit : rtt * mult < durationLimit) :
    ∃ l q', q.getExpiredChecked now rtt mult = .ok (l, q') ∧
      (∀ s b, (s, b) ∈ l ↔ ∃ e, q.packets[s]? = some e ∧ e.packet = b ∧ rtt * mult < now - e.lastSendTime) ∧
      l.Pairwise (fun a b => a.1 < b.1) ∧
      (∀ s : Nat, q'.packets[s]? = q.packets[s]?.map fun e =>
        if rtt * mult < now - e.lastSendTime then
          { e with lastSendTime := now, retryCount := min (e.retryCount + 1) 255 }
        else e) ∧
      (∀ s, q'.packet? s = q.packet? s) ∧ q'.totalSent = q.totalSent ∧ q'.totalAcked = q.totalAcked ∧
      q'.getExpiredChecked now rtt mult = .ok ([], q') := by
  refine ⟨(q.getExpired now rtt mult).1, (q.getExpired now rtt mult).2, q.getExpiredChecked_of_fits now hfit,
    q.mem_getExpired_iff now rtt mult, q.sorted_getExpired now rtt mult, ?_, q.packet?_getExpired now rtt mult, rfl, rfl, ?_⟩
  · intro s
    rw [entries_getExpired]
    simp only [isExpired, decide_eq_true_eq, retransmitted]
  · rw [getExpiredChecked_of_fits _ now hfit, getExpired_again]

/-- two packets, one of them past the timeout -/
theorem get_expired_partitions_two :
    ∃ l q', ((new.insert 0 7 [1]).2.insert 60 8 [2]).2.getExpiredChecked 100 20 3 = .ok (l, q') ∧
      (7, [1]) ∈ l ∧ q'.packet? 8 = some [2] := by
  obtain ⟨l, q', hcall, hmem, -, -, hpackets, -⟩ :=
    get_expired_partitions ((new.insert 0 7 [1]).2.insert 60 8 [2]).2 100 20 3 (by decide)
  refine ⟨l, q', hcall, (hmem 7 [1]).2 ⟨⟨[1], 0, 0⟩, by decide +kernel, rfl, by decide⟩, ?_⟩
  rw [hpackets]
  decide +kernel

/-- **A timeout that is no `Duration` panics.** The longest round-trip time, doubled. -/
theorem get_expired_panics :
    new.getExpiredChecked 0 (durationLimit - 1) 2 = .panic ∧
    ¬ ∀ (q : SendQueue) (now rtt mult : Nat), rtt < durationLimit → mult < 2 ^ 32 →
      (∀ (s : Nat) e, q.packets[s]? = some e → e.lastSendTime ≤ now) →
      ∃ l q', q.getExpiredChecked now rtt mult = .ok (l, q') := by
  have hpanic : new.getExpiredChecked 0 (durationLimit - 1) 2 = .panic := by
    rw [getExpiredChecked, durationMul, if_neg (by decide)]
    rfl
  refine ⟨hpanic, ?_⟩
  intro hall
  obtain ⟨l, q', hcall⟩ := hall new 0 (durationLimit - 1) 2 (by decide) (by decide) (by simp [new, withCapacity])
  rw [hpanic] at hcall
  cases hcall

end SendQueue

end RakNet
