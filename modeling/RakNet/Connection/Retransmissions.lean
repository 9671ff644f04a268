/-
Which packets `check_retransmissions` sends again.

The comment beside the timeout says three round trips, and `get_expired` documents its multiplier as three; the code
applies both. A packet is sent again only after nine round trips.

- `mem_overdue`, `sorted_overdue`: the overdue entries, and their order.
- `sent_checkRetransmissions`: what one call hands to the socket, failures of the socket included.
- `retransmits_overdue_iff`: it is the packets older than three round trips exactly when no packet of the queue is between
  three and nine round trips old and the socket takes them all.
- `retransmits_too_late`: a packet four round trips old stays where it is.
- `timeout_fits`: no multiplication of the timeout overflows a `Duration`.
-/
import RakNet.Connection.Tick
import RakNet.Reliability.Expired

namespace RakNet

open Lib Lib.Wire

namespace SendQueue

/-- the entries whose last transmission lies more than `age` in the past, in increasing order -/
def overdue (q : SendQueue) (now age : Nat) : List (Nat × QueueEntry) :=
  q.packets.toList.filter fun e => decide (age < now - e.2.lastSendTime)

theorem mem_overdue {q : SendQueue} {now age s : Nat} {e : QueueEntry} :
    (s, e) ∈ q.overdue now age ↔ q.packets[s]? = some e ∧ age < now - e.lastSendTime := by
  rw [overdue, List.mem_filter, NatMap.mem_toList, decide_eq_true_eq]

theorem sorted_overdue (q : SendQueue) (now age : Nat) : (q.overdue now age).Pairwise fun a b => a.1 < b.1 :=
  q.packets.sorted_toList.filter _

/-- `get_expired` hands out the entries that are overdue by its own product -/
theorem getExpired_eq_overdue (q : SendQueue) (now rtt mult : Nat) :
    (q.getExpired now rtt mult).1.map Prod.snd = (q.overdue now (rtt * mult)).map fun e => e.2.packet := by
  rw [getExpired, List.map_map]
  rfl

/-- a longer timeout leaves fewer entries overdue -/
theorem overdue_sublist (q : SendQueue) (now : Nat) {age late : Nat} (hle : age ≤ late) :
    (q.overdue now late).Sublist (q.overdue now age) := by
  apply List.monotone_filter_right
  intro e hlate
  rw [decide_eq_true_eq] at hlate ⊢
  exact Nat.lt_of_le_of_lt hle hlate

/-- none fewer exactly when no entry is between the two -/
theorem overdue_eq_iff (q : SendQueue) (now : Nat) {age late : Nat} (hle : age ≤ late) :
    q.overdue now late = q.overdue now age ↔
      ∀ (s : Nat) e, q.packets[s]? = some e → age < now - e.lastSendTime → late < now - e.lastSendTime := by
  constructor
  · intro heq s e hs hold
    have hmem : (s, e) ∈ q.overdue now late := by
      rw [heq]
      exact mem_overdue.2 ⟨hs, hold⟩
    exact (mem_overdue.1 hmem).2
  · intro hnone
    apply List.filter_congr
    rintro ⟨s, e⟩ hmem
    rw [decide_eq_decide]
    exact ⟨fun hlate => Nat.lt_of_le_of_lt hle hlate, hnone s e ((NatMap.mem_toList _ _ _).1 hmem)⟩

end SendQueue

namespace Conn

/-- the packets the socket takes before it fails -/
def taken : (Nat → Env) → List Bytes → List Bytes
  | _, [] => []
  | envs, packet :: rest =>
    match (envs 0).sendError with
    | none => packet :: taken (fun i => envs (i + 1)) rest
    | some _ => []

theorem sent_sendAll (envs : Nat → Env) (packets : List Bytes) (c : Conn) :
    (sendAll envs packets c).2.sent = c.sent ++ taken envs packets := by
  induction packets generalizing envs c with
  | nil => exact (List.append_nil _).symm
  | cons packet rest ih =>
    unfold taken
    cases henv : (envs 0).sendError with
    | some msg =>
      rw [sendAll_cons_err henv]
      exact (List.append_nil _).symm
    | none =>
      rw [sendAll_cons_ok henv]
      calc (sendAll (fun i => envs (i + 1)) rest
            (recordSend (envs 0) packet.length { c with sent := c.sent ++ [packet] }).2).2.sent
          = (c.sent ++ [packet]) ++ taken (fun i => envs (i + 1)) rest := ih _ _
        _ = c.sent ++ (packet :: taken (fun i => envs (i + 1)) rest) := List.append_assoc _ _ _

theorem taken_length_le (envs : Nat → Env) (packets : List Bytes) : (taken envs packets).length ≤ packets.length := by
  induction packets generalizing envs with
  | nil => exact Nat.le_refl _
  | cons packet rest ih =>
    unfold taken
    cases (envs 0).sendError with
    | none => exact Nat.succ_le_succ (ih _)
    | some msg => exact Nat.zero_le _

/-- the socket takes them all exactly when none of the calls fails -/
theorem taken_eq_iff (envs : Nat → Env) (packets : List Bytes) :
    taken envs packets = packets ↔ ∀ i < packets.length, (envs i).sendError = none := by
  induction packets generalizing envs with
  | nil => simp [taken]
  | cons packet rest ih =>
    unfold taken
    cases henv : (envs 0).sendError with
    | some msg =>
      refine iff_of_false (List.cons_ne_nil _ _).symm ?_
      intro hall
      have h0 := hall 0 (Nat.succ_pos _)
      rw [henv] at h0
      cases h0
    | none =>
      rw [List.cons.injEq, ih]
      constructor
      · rintro ⟨-, hrest⟩ i hi
        cases i with
        | zero => exact henv
        | succ j => exact hrest j (Nat.lt_of_succ_lt_succ hi)
      · intro hall
        exact ⟨rfl, fun j hj => hall (j + 1) (Nat.succ_lt_succ hj)⟩

/-- the packets whose last transmission lies more than so many round trips in the past, in increasing order -/
def overduePackets (c : Conn) (now roundTrips : Nat) : List Bytes :=
  (c.shared.sendQueue.overdue now (roundTrips * c.shared.metrics.rttNanos)).map fun e => e.2.packet

/-- **One call.** The packets older than nine round trips, up to the first failure of the socket -/
theorem sent_checkRetransmissions (envs : Nat → Env) (c : Conn) :
    (checkRetransmissions envs c).2.sent = c.sent ++ taken envs (c.overduePackets (envs 0).now 9) := by
  have hnine : c.shared.metrics.rttNanos * 3 * 3 = 9 * c.shared.metrics.rttNanos := by ring
  calc (checkRetransmissions envs c).2.sent
      = c.sent ++ taken envs ((c.shared.sendQueue.getExpired (envs 0).now (c.shared.metrics.rttNanos * 3) 3).1.map
          Prod.snd) := sent_sendAll _ _ _
    _ = c.sent ++ taken envs (c.overduePackets (envs 0).now 9) := by
      rw [SendQueue.getExpired_eq_overdue, hnine, overduePackets]

/-- the round-trip time is a `u64` of microseconds, so neither multiplication overflows -/
theorem timeout_fits (q : SendQueue) (now : Nat) {m : ConnectionMetrics} (hrtt : m.rtt < 2 ^ 64) :
    durationMul m.rttNanos 3 = .ok (m.rttNanos * 3) ∧
    q.getExpiredChecked now (m.rttNanos * 3) 3 = .ok (q.getExpired now (m.rttNanos * 3) 3) := by
  have hnine : m.rttNanos * 3 * 3 < durationLimit := by
    unfold ConnectionMetrics.rttNanos durationLimit
    omega
  have hthree : m.rttNanos * 3 < durationLimit := by omega
  exact ⟨if_pos hthree, q.getExpiredChecked_of_fits now hnine⟩

/-- **Retransmission threshold.** For every connection, clock and socket: the packets sent again are those whose last
transmission lies more than three round trips in the past, each once and in increasing order, exactly when no packet of the
queue is between three and nine round trips old and the socket takes them all. -/
theorem retransmits_overdue_iff (envs : Nat → Env) (c : Conn) :
    (checkRetransmissions envs c).2.sent = c.sent ++ c.overduePackets (envs 0).now 3 ↔
      (∀ (s : Nat) e, c.shared.sendQueue.packets[s]? = some e →
        3 * c.shared.metrics.rttNanos < (envs 0).now - e.lastSendTime →
        9 * c.shared.metrics.rttNanos < (envs 0).now - e.lastSendTime) ∧
      ∀ i < (c.overduePackets (envs 0).now 3).length, (envs i).sendError = none := by
  have hle : 3 * c.shared.metrics.rttNanos ≤ 9 * c.shared.metrics.rttNanos := by omega
  rw [sent_checkRetransmissions, List.append_cancel_left_eq, ← SendQueue.overdue_eq_iff _ _ hle, ← taken_eq_iff]
  constructor
  · intro htaken
    -- what the socket took is part of the late ones, and those are part of the overdue ones: all three are as long
    have hsub := c.shared.sendQueue.overdue_sublist (envs 0).now hle
    have hlen : (c.shared.sendQueue.overdue (envs 0).now (3 * c.shared.metrics.rttNanos)).length ≤
        (c.shared.sendQueue.overdue (envs 0).now (9 * c.shared.metrics.rttNanos)).length := by
      have hshort := taken_length_le envs (c.overduePackets (envs 0).now 9)
      rw [htaken] at hshort
      simpa only [overduePackets, List.length_map] using hshort
    have hsame := hsub.eq_of_length_le hlen
    refine ⟨hsame, ?_⟩
    calc taken envs (c.overduePackets (envs 0).now 3)
        = taken envs (c.overduePackets (envs 0).now 9) := by rw [overduePackets, overduePackets, hsame]
      _ = c.overduePackets (envs 0).now 3 := htaken
  · rintro ⟨hsame, htaken⟩
    calc taken envs (c.overduePackets (envs 0).now 9)
        = taken envs (c.overduePackets (envs 0).now 3) := by rw [overduePackets, overduePackets, hsame]
      _ = c.overduePackets (envs 0).now 3 := htaken

/-- a fresh stream that sent one packet at time zero -/
def oneUnacknowledged : Conn :=
  let c := new 1400 0 false
  { c with shared := { c.shared with sendQueue := (c.shared.sendQueue.insert 0 0 [132]).2 } }

/-- **Four round trips are not enough.** The round-trip time is 300 ms, the packet is 1.2 s old, the socket takes
everything, and nothing is sent again. -/
theorem retransmits_too_late :
    (checkRetransmissions (fun _ => { quietEnv with now := 1200000000 }) oneUnacknowledged).2.sent = [] ∧
    oneUnacknowledged.overduePackets 1200000000 3 = [[132]] ∧
    ¬ ∀ (envs : Nat → Env) (c : Conn), (∀ i, (envs i).sendError = none) →
      (checkRetransmissions envs c).2.sent = c.sent ++ c.overduePackets (envs 0).now 3 := by
  have hsent : (checkRetransmissions (fun _ => { quietEnv with now := 1200000000 }) oneUnacknowledged).2.sent = [] := by
    decide +kernel
  have hdue : oneUnacknowledged.overduePackets 1200000000 3 = [[132]] := by
    decide +kernel
  refine ⟨hsent, hdue, ?_⟩
  intro hall
  have hclaim := hall (fun _ => { quietEnv with now := 1200000000 }) oneUnacknowledged fun _ => rfl
  rw [hsent, hdue] at hclaim
  cases hclaim

end Conn

end RakNet
