/-
What an ACK packet does to the send queue.

The records of the packet go through three representations: they are expanded into numbers, the numbers are merged into the
ranges of a list, and the ranges are removed from the queue one by one. At each of these the same numbers are named.

- `covers_of_packet`: the list of a decoded packet covers what its records cover.
- `ack_packet_effect`: the effect of the packet, said on its records.
-/
import RakNet.Connection.Receive
import RakNet.Reliability.AckGrammar
import RakNet.Reliability.Acknowledging

namespace RakNet

open Lib Lib.Wire

namespace AckRangeList

/-- naming a number and containing it are the same, up to 24 bits -/
theorem covers_iff_mem (l : AckRangeList) {s : Nat} (hs : s < 2 ^ 24) : l.covers s = true ↔ l.Mem (U24.new s) := by
  have hrange : ∀ r : AckRange, r.covers s = r.contains (U24.new s) := by
    intro r
    cases r with
    | single seq =>
      rw [AckRange.covers, AckRange.contains, Bool.eq_iff_iff, beq_iff_eq, beq_iff_eq]
      constructor
      · rintro rfl
        exact (U24.new_get seq).symm
      · intro h
        rw [h, U24.get_new_of_lt hs]
    | range start last => exact SendQueue.seqInRange_eq_contains start last hs
  rw [covers, List.any_eq_true]
  simp only [hrange]
  exact Iff.rfl

/-- a decoded packet names the numbers of its records -/
theorem covers_of_packet {data : Bytes} {isAck : Bool} {rs : List AckRange} {l : AckRangeList}
    (hp : IsAckPacket data isAck rs) (hdec : decodeAckNack data = .ok (isAck, l)) {s : Nat} (hs : s < 2 ^ 24) :
    l.covers s = true ↔ ∃ r ∈ rs, r.Names s := by
  rw [decodeAckNack_of_packet hp] at hdec
  cases hdec
  rw [covers_iff_mem _ hs, mem_new_insertAll, List.mem_flatMap]
  simp only [AckRange.mem_expand_iff, U24.get_new_of_lt hs]

end AckRangeList

namespace Conn

open SendQueue

/-- **The effect of an ACK packet.** For every byte string that decodes as an ACK and every queue of 24-bit keys: the packet
has one list of records; `handle_ack` leaves the entries that no record covers, as they were, and no others; and
`total_acked` grows by the number of entries removed. -/
theorem ack_packet_effect (c : Conn) (hkeys : c.shared.sendQueue.Keys24) (data : Bytes) (l : AckRangeList)
    (hdec : decodeAckNack data = .ok (true, l)) :
    ∃ rs, (∀ rs', IsAckPacket data true rs' ↔ rs' = rs) ∧
      (∀ s : Nat, (handleAck l c).2.shared.sendQueue.packets[s]? =
        if ∃ r ∈ rs, r.Names s then none else c.shared.sendQueue.packets[s]?) ∧
      (handleAck l c).2.shared.sendQueue.totalAcked = c.shared.sendQueue.totalAcked +
        (c.shared.sendQueue.packets.toList.filter fun e => decide (∃ r ∈ rs, r.Names e.1)).length := by
  obtain ⟨isAck, rs, hp⟩ := packet_of_decodeAckNack hdec
  have htrue : isAck = true := by
    have hboth := (decodeAckNack_of_packet hp).symm.trans hdec
    cases hboth
    rfl
  subst htrue
  have hrem : Removes c.shared.sendQueue (handleAck l c).2.shared.sendQueue fun s => decide (∃ r ∈ rs, r.Names s) := by
    refine (removes_ackQueue c.shared.sendQueue l).congr ?_
    intro s e hs
    rw [Bool.eq_iff_iff, decide_eq_true_eq]
    exact AckRangeList.covers_of_packet hp hdec (hkeys s e hs)
  refine ⟨rs, ?_, ?_, hrem.acked⟩
  · intro rs'
    constructor
    · exact fun hp' => (hp'.unique hp).2
    · rintro rfl
      exact hp
  · intro s
    rw [hrem.entries]
    simp only [decide_eq_true_eq]

/-- two queued packets, and an ACK whose only record wraps over one of them -/
theorem ack_packet_effect_wrap :
    ((handleAck ⟨[.range (U24.new 0) (U24.new 1), .single (U24.new 0xFFFFFF)]⟩
      { Conn.new 1400 0 false with
        shared := { SharedState.new 1400 0 with
          sendQueue := ((SendQueue.new.insert 0 0xFFFFFF [1]).2.insert 0 5 [2]).2 } }).2.shared.sendQueue).totalAcked = 1 := by
  have hkeys := (keys24_new.insert 0 [1] (show 0xFFFFFF < 2 ^ 24 by decide)).insert 0 [2] (show 5 < 2 ^ 24 by decide)
  have hdec : decodeAckNack [0xc0, 0, 1, 0, 0xff, 0xff, 0xff, 1, 0, 0] =
      .ok (true, ⟨[.range (U24.new 0) (U24.new 1), .single (U24.new 0xFFFFFF)]⟩) := by decide +kernel
  obtain ⟨rs, hrs, -, hacked⟩ := ack_packet_effect
    { Conn.new 1400 0 false with
      shared := { SharedState.new 1400 0 with
        sendQueue := ((SendQueue.new.insert 0 0xFFFFFF [1]).2.insert 0 5 [2]).2 } } hkeys _ _ hdec
  have hrecords : rs = [.range (u24Of 0xff 0xff 0xff) (u24Of 1 0 0)] :=
    ((hrs _).1 (.ack (show Records 1 _ _ from .cons (.range 0xff 0xff 0xff 1 0 0) (.nil [])))).symm
  rw [hacked, hrecords]
  decide +kernel

end Conn

end RakNet
