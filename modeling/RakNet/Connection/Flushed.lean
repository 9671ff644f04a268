/-
Flushed ACKs at the receiving end.

`flush_acks` puts everything that is pending into one packet; the peer's `receive_task` reads it into a buffer of 2048
bytes. A packet that is longer is cut, and `decode_ack_nack` decodes all of its records or nothing.

- `receivable_iff`: an encoded list, cut to the buffer, gives back its numbers exactly when it fits the buffer.
- `flushed_receivable_iff`: the same for the packet that `flush_acks` sends in a reachable state.
- `every_other_lost`: with every second one of 1024 datagrams received between two flushes, none is acknowledged.
-/
import RakNet.Connection.Run
import RakNet.Protocol.RoundTrip

namespace RakNet

open Lib Lib.Wire

namespace AckRangeList

/-- the first ranges of a list that already have all of its numbers are all of its ranges -/
theorem Inv.take_eq {l : AckRangeList} (h : l.Inv) {n : Nat}
    (hmem : ∀ x, (∃ r ∈ l.ranges.take n, r.contains x = true) ↔ l.Mem x) : l.ranges.take n = l.ranges := by
  have htake : MaximalRuns (l.ranges.take n) (Mem ⟨l.ranges.take n⟩) := by
    refine ⟨?_, ?_, fun _ => Iff.rfl⟩
    · intro r hr
      exact h.proper r (List.mem_of_mem_take hr)
    · exact h.maximalRuns.gaps.sublist (List.take_sublist n l.ranges)
  exact congrArg ranges (htake.inv.eq_of_mem h hmem)

theorem four_le_encodedSize (r : AckRange) : 4 ≤ r.encodedSize := by
  cases r <;> simp [AckRange.encodedSize]

/-- every record takes at least four bytes -/
theorem length_le_encodedSize (l : AckRangeList) : 4 * l.ranges.length ≤ l.encodedSize := by
  have hsum : (l.ranges.map AckRange.encodedSize).length • 4 ≤ (l.ranges.map AckRange.encodedSize).sum := by
    apply List.card_nsmul_le_sum
    intro k hk
    obtain ⟨r, -, rfl⟩ := List.mem_map.1 hk
    exact four_le_encodedSize r
  rw [List.length_map, smul_eq_mul, Nat.mul_comm] at hsum
  exact hsum

theorem length_encodeAck (l : AckRangeList) : (encodeAck l).length = 3 + l.encodedSize := by
  rw [encodeAck, encodeRecords, List.length_append, List.length_append, length_putU16, length_records, encodedSize]
  simp only [List.length_singleton]
  omega

end AckRangeList

namespace Conn

open Action

/-- the packet, as it comes out of the peer's buffer, decodes to an ACK of exactly the numbers of the list -/
def Receivable (pending : AckRangeList) (packet : Bytes) : Prop :=
  ∃ l, decodeAckNack (packet.take recvBufferSize) = .ok (true, l) ∧ ∀ x, l.Mem x ↔ pending.Mem x

/-- **One buffer.** An encoded list is received as it is if and only if its packet fits the buffer of the peer. -/
theorem receivable_iff {l : AckRangeList} (h : l.Inv) :
    Receivable l (encodeAck l) ↔ 3 + l.encodedSize ≤ recvBufferSize := by
  constructor
  · rintro ⟨l', hd, hmem⟩
    obtain ⟨-, rfl, hsize⟩ := decodeAckNack_take hd
    -- the ranges that were decoded have all numbers of the list, so they are all its ranges
    have hall : l.ranges.take (l.ranges.length % 2 ^ 16) = l.ranges := by
      apply h.take_eq
      intro x
      rw [← hmem x, AckRangeList.mem_new_insertAll, List.mem_flatMap]
      have hexpand : ∀ r ∈ l.ranges.take (l.ranges.length % 2 ^ 16), (x ∈ r.expand ↔ r.contains x = true) := fun r hr =>
        AckRange.mem_expand (h.proper r (List.mem_of_mem_take hr)) x
      constructor
      · rintro ⟨r, hr, hx⟩
        exact ⟨r, hr, (hexpand r hr).2 hx⟩
      · rintro ⟨r, hr, hx⟩
        exact ⟨r, hr, (hexpand r hr).1 hx⟩
    rw [hall] at hsize
    exact hsize
  · intro hfit
    have hlen : l.ranges.length ≤ 65535 := by
      have hfour := l.length_le_encodedSize
      unfold recvBufferSize at hfit
      omega
    refine ⟨l, ?_, fun _ => Iff.rfl⟩
    rw [List.take_of_length_le (by rw [AckRangeList.length_encodeAck]; exact hfit)]
    exact (h.reads_records hlen true).run

/-- a packet that does not fit, of a list that fits the record count, does not decode at all -/
theorem not_decoded_of_cut {l : AckRangeList} (hlen : l.ranges.length < 2 ^ 16)
    (hcut : recvBufferSize < 3 + l.encodedSize) (r : Bool × AckRangeList) :
    decodeAckNack ((encodeAck l).take recvBufferSize) ≠ .ok r := by
  intro hd
  obtain ⟨-, -, hle⟩ := decodeAckNack_take hd
  rw [Nat.mod_eq_of_lt hlen, List.take_length] at hle
  exact absurd hcut (Nat.not_lt.2 hle)

/-- what `flush_acks` sends: one packet with everything that is pending, unless there is nothing or the socket fails -/
theorem sent_flushAcks (env : Env) (c : Conn) :
    (flushAcks env c).2.sent = c.sent ++
      if c.shared.pendingAcks.ranges.isEmpty || env.sendError.isSome then [] else [encodeAck c.shared.pendingAcks] := by
  unfold flushAcks
  simp only [bind_apply, onShared]
  cases hempty : c.shared.pendingAcks.ranges.isEmpty with
  | true => simp
  | false =>
    unfold socketSend
    cases env.sendError with
    | some msg => simp [bind_apply]
    | none => simp [bind_apply, recordSend, modifyShared]

/-- **Flushed ACKs are receivable**, in any reachable state, if and only if the socket does not take them or the packet fits
the buffer of the peer. -/
theorem flushed_receivable_iff (p : Profile) (mtu : UInt16) (nowMicros : Nat) (ready : Bool) (ops : List Op) (env : Env) :
    (∀ packet, (flushAcks env (run p (new mtu nowMicros ready) ops)).2.sent =
        (run p (new mtu nowMicros ready) ops).sent ++ [packet] →
        Receivable (run p (new mtu nowMicros ready) ops).shared.pendingAcks packet) ↔
      env.sendError.isSome = true ∨
        3 + (run p (new mtu nowMicros ready) ops).shared.pendingAcks.encodedSize ≤ recvBufferSize := by
  have hinv := (reachable_wf p mtu nowMicros ready ops).acks
  rw [sent_flushAcks, ← receivable_iff hinv]
  cases hsend : env.sendError with
  | some msg => simp
  | none =>
    cases hempty : (run p (new mtu nowMicros ready) ops).shared.pendingAcks.ranges.isEmpty with
    | true =>
      rw [receivable_iff hinv, AckRangeList.encodedSize, List.isEmpty_iff.1 hempty]
      simp [recvBufferSize]
    | false => simp

/-! ## Every second datagram -/

/-- a datagram that arrives -/
theorem ackView_receive (p : Profile) (envs : Nat → Env) (seq : U24) (frames : List Bytes) (c : Conn) :
    ackView (step p c (.receive envs (encodeDatagram seq frames))) = arrive (ackView c) seq := by
  have hd := decodeDatagram_take seq frames (show 4 ≤ recvBufferSize by decide)
  have hcut : (encodeDatagram seq frames).take recvBufferSize = 0x84 :: (writeU24 seq ++ frames.flatten).take 2047 := rfl
  rw [hcut] at hd
  unfold step
  rw [Op.act, ackView_receivePacket, hcut]
  unfold handlePacket
  dsimp only
  rw [if_neg (by decide), if_neg (by decide), if_neg (by decide), if_pos (by decide), bind_apply, lift_apply, hd]
  exact ackView_handleDatagram p envs seq _ c

/-- a window at base 0 that has nothing from `m` on -/
structure Below (m : Nat) (w : RecvWindow 2048) : Prop where
  base : w.baseSeq = 0
  bits : ∀ i (h : i < 2048), w.received[i] = true → i < m

theorem below_new : Below 0 .new := by
  refine ⟨rfl, ?_⟩
  intro i h hbit
  simp [RecvWindow.new, RecvWindow.withCapacity] at hbit

/-- a number of the window that comes after all others is accepted -/
theorem Below.markReceived {m seq : Nat} {w : RecvWindow 2048} (h : Below m w) (hm : m ≤ seq) (hseq : seq < 2048) :
    (w.markReceived seq).1 = some true ∧ Below (seq + 1) (w.markReceived seq).2 := by
  have hbase := h.base
  have hoff : w.offset seq = seq := by
    have hdist : w.offset seq = seq - w.baseSeq := w.offset_of_le (by omega) (by omega)
    omega
  rcases w.markReceived_cases seq (by norm_num) with ⟨hold, -⟩ | ⟨-, hpast, -⟩ | ⟨-, hin, hbit, -⟩ |
    ⟨-, hin, -, he⟩
  · rw [w.tooOld_eq seq (by omega) (by omega), hbase] at hold
    simp at hold
  · omega
  · have hlt := h.bits _ hin hbit
    omega
  · rw [he]
    refine ⟨rfl, h.base, ?_⟩
    intro i hi hbit
    simp only [RecvWindow.accept, Vector.getElem_set] at hbit
    split_ifs at hbit with heq
    · omega
    · have hlt := h.bits i hi hbit
      omega

/-- the first `k` even numbers -/
def evens (k : Nat) : List U24 := (List.range k).map fun i => U24.new (2 * i)

/-- datagrams with these numbers, and no frames -/
def arrivals (seqs : List U24) : List Op := seqs.map fun seq => .receive (fun _ => quietEnv) (encodeDatagram seq [])

theorem run_evens {k : Nat} (hk : k ≤ 1024) :
    (run .dev (new 1500 0 false) (arrivals (evens k))).shared.pendingAcks = AckRangeList.new.insertAll (evens k) ∧
      Below (2 * k) (run .dev (new 1500 0 false) (arrivals (evens k))).shared.recvWindow := by
  induction k with
  | zero => exact ⟨rfl, below_new⟩
  | succ k ih =>
    obtain ⟨hacks, hwindow⟩ := ih (by omega)
    have hevens : evens (k + 1) = evens k ++ [U24.new (2 * k)] := by
      rw [evens, List.range_succ, List.map_append]
      rfl
    have hget : (U24.new (2 * k)).get = 2 * k := U24.get_new_of_lt (by omega)
    obtain ⟨hnew, hbelow⟩ := hwindow.markReceived (le_refl (2 * k)) (by omega)
    have hview := ackView_receive .dev (fun _ => quietEnv) (U24.new (2 * k)) []
      (run .dev (new 1500 0 false) (arrivals (evens k)))
    rw [arrive_accepted (by rw [hget]; exact hnew), hget] at hview
    have hrun : run .dev (new 1500 0 false) (arrivals (evens (k + 1))) =
        step .dev (run .dev (new 1500 0 false) (arrivals (evens k)))
          (.receive (fun _ => quietEnv) (encodeDatagram (U24.new (2 * k)) [])) := by
      rw [hevens, arrivals, List.map_append, run, Machine.run_append]
      rfl
    rw [hrun]
    refine ⟨?_, ?_⟩
    · rw [hevens, AckRangeList.insertAll_append, ← hacks]
      exact congrArg Prod.snd hview
    · have hw : (step .dev (run .dev (new 1500 0 false) (arrivals (evens k)))
          (.receive (fun _ => quietEnv) (encodeDatagram (U24.new (2 * k)) []))).shared.recvWindow =
          ((run .dev (new 1500 0 false) (arrivals (evens k))).shared.recvWindow.markReceived (2 * k)).2 :=
        congrArg Prod.fst hview
      rw [hw]
      exact ⟨hbelow.base, fun i hi hbit => by have := hbelow.bits i hi hbit; omega⟩

/-- none of the even numbers is next to another -/
theorem insertAll_evens {k : Nat} (hk : k ≤ 1024) :
    AckRangeList.new.insertAll (evens k) = ⟨(evens k).map AckRange.single⟩ := by
  have hget : ∀ i < k, (U24.new (2 * i)).get = 2 * i := fun i hi => U24.get_new_of_lt (by omega)
  have hruns : AckRangeList.MaximalRuns ((evens k).map AckRange.single)
      (AckRangeList.Mem ⟨(evens k).map AckRange.single⟩) := by
    refine ⟨?_, ?_, fun _ => Iff.rfl⟩
    · intro r hr
      obtain ⟨seq, -, rfl⟩ := List.mem_map.1 hr
      trivial
    · rw [evens, List.map_map, List.pairwise_map]
      refine List.pairwise_lt_range.imp_of_mem ?_
      intro i j hi hj hij
      simp only [Function.comp_apply, AckRange.rangeStart_single, AckRange.rangeEnd_single]
      rw [hget i (List.mem_range.1 hi), hget j (List.mem_range.1 hj)]
      omega
  refine (AckRangeList.insertAll_inv AckRangeList.inv_new _).eq_of_mem hruns.inv ?_
  intro x
  rw [AckRangeList.mem_new_insertAll]
  constructor
  · intro hx
    exact ⟨.single x, List.mem_map_of_mem hx, by simp [AckRange.contains]⟩
  · rintro ⟨r, hr, hx⟩
    obtain ⟨seq, hseq, rfl⟩ := List.mem_map.1 hr
    rw [AckRange.contains, beq_iff_eq] at hx
    exact hx ▸ hseq

/-- **A flush that acknowledges nothing.** Of the first 1024 datagrams every second one arrives before the next flush: the
packet has 2051 bytes, and its last record is cut. -/
theorem every_other_lost :
    (run .dev (new 1500 0 false) (arrivals (evens 512))).shared.pendingAcks = ⟨(evens 512).map AckRange.single⟩ ∧
    (encodeAck (run .dev (new 1500 0 false) (arrivals (evens 512))).shared.pendingAcks).length = 2051 ∧
    (flushAcks quietEnv (run .dev (new 1500 0 false) (arrivals (evens 512)))).2.sent =
      (run .dev (new 1500 0 false) (arrivals (evens 512))).sent ++
        [encodeAck (run .dev (new 1500 0 false) (arrivals (evens 512))).shared.pendingAcks] ∧
    (∀ r, decodeAckNack
      ((encodeAck (run .dev (new 1500 0 false) (arrivals (evens 512))).shared.pendingAcks).take recvBufferSize) ≠ .ok r) ∧
    ¬ Receivable (run .dev (new 1500 0 false) (arrivals (evens 512))).shared.pendingAcks
      (encodeAck (run .dev (new 1500 0 false) (arrivals (evens 512))).shared.pendingAcks) := by
  have hacks : (run .dev (new 1500 0 false) (arrivals (evens 512))).shared.pendingAcks =
      ⟨(evens 512).map AckRange.single⟩ := (run_evens (by omega)).1.trans (insertAll_evens (by omega))
  have hsize : (⟨(evens 512).map AckRange.single⟩ : AckRangeList).encodedSize = 2048 := by
    have hconst : AckRange.encodedSize ∘ AckRange.single = fun _ => 4 := rfl
    calc (⟨(evens 512).map AckRange.single⟩ : AckRangeList).encodedSize
        = ((evens 512).map fun _ => 4).sum := by rw [AckRangeList.encodedSize, List.map_map, hconst]
      _ = (evens 512).length * 4 := by rw [List.map_const', List.sum_replicate, smul_eq_mul]
      _ = 2048 := by rw [evens, List.length_map, List.length_range]
  refine ⟨hacks, ?_, ?_, ?_, ?_⟩
  · rw [hacks, AckRangeList.length_encodeAck, hsize]
  · rw [sent_flushAcks, hacks]
    simp [evens, quietEnv]
  · rw [hacks]
    apply not_decoded_of_cut
    · rw [List.length_map, evens, List.length_map, List.length_range]
      norm_num
    · rw [hsize]
      decide
  · rw [receivable_iff (reachable_wf .dev 1500 0 false _).acks, hacks, hsize]
    decide

end Conn

end RakNet
