/-
No false acknowledgement: whatever leaves the send queue was accepted by the receiver.

The guarantee crosses the window, the pending list, the ACK encoder, the decoder that expands ranges, and the removal
from the queue. The invariant follows a number from `mark_received` on: it is in the log of accepted numbers before it
can be waiting to be recorded, pending, taken by a flush, or in an ACK packet.
-/
import RakNet.System.Net

namespace RakNet

open Lib Lib.Wire

namespace Net

/-- the list is canonical and holds accepted numbers only -/
def Acks (accepted : List Nat) (l : AckRangeList) : Prop := l.Inv ∧ ∀ x : U24, l.Mem x → x.get ∈ accepted

/-- every stage between `mark_received` and the wire holds accepted numbers only -/
structure AckInv (n : Net) : Prop where
  arriving : ∀ y ∈ n.arriving, y.2.get ∈ n.accepted
  pending : Acks n.accepted n.receiver.shared.pendingAcks
  flushing : ∀ f ∈ n.flushing, Acks n.accepted f.1
  sent : ∀ b ∈ n.receiver.sent, ∃ l, b = encodeAck l ∧ Acks n.accepted l

theorem acks_new (accepted : List Nat) : Acks accepted .new :=
  ⟨AckRangeList.inv_new, fun x hx => absurd hx (AckRangeList.not_mem_new x)⟩

theorem Acks.mono {a b : List Nat} (hab : ∀ s ∈ a, s ∈ b) {l : AckRangeList} (h : Acks a l) : Acks b l :=
  ⟨h.1, fun x hx => hab _ (h.2 x hx)⟩

theorem Acks.insert {a : List Nat} {l : AckRangeList} (h : Acks a l) {seq : U24} (hs : seq.get ∈ a) :
    Acks a (l.insert seq) := by
  refine ⟨AckRangeList.insert_inv h.1 seq, ?_⟩
  intro x hx
  rcases (AckRangeList.mem_insert h.1 seq x).1 hx with hx | rfl
  · exact h.2 x hx
  · exact hs

theorem ackInv_init (mtu mtu' : UInt16) (t t' : Nat) : (init mtu mtu' t t').AckInv where
  arriving := by simp [init]
  pending := acks_new _
  flushing := by simp [init]
  sent := by simp [init, Conn.new]

theorem AckInv.arrive {n : Net} (h : n.AckInv) (k : Nat) : (n.arrive k).AckInv := by
  rcases arrive_cases n k with he | ⟨packet, seq, data, -, -, ⟨-, he⟩ | ⟨id, -, -, he⟩⟩ <;> rw [he]
  · exact h
  · exact ⟨h.arriving, h.pending, h.flushing, h.sent⟩
  · -- the log grows by the accepted number, which is now waiting to be recorded
    have hmono : ∀ s ∈ n.accepted, s ∈ n.accepted ++ [seq.get] := fun s hs => List.mem_append_left _ hs
    refine ⟨?_, h.pending.mono hmono, fun f hf => (h.flushing f hf).mono hmono, ?_⟩
    · intro y hy
      rcases List.mem_append.1 hy with hy | hy
      · exact hmono _ (h.arriving y hy)
      · rw [List.mem_singleton.1 hy]
        simp
    · intro b hb
      obtain ⟨l, hl, ha⟩ := h.sent b hb
      exact ⟨l, hl, ha.mono hmono⟩

theorem AckInv.record {n : Net} (h : n.AckInv) (i : Nat) : (n.record i).AckInv := by
  rcases record_cases n i with he | ⟨id, seq, hi, he⟩ <;> rw [he]
  · exact h
  · have hseq : seq.get ∈ n.accepted := h.arriving (id, seq) (List.mem_of_getElem? hi)
    exact ⟨fun y hy => h.arriving y ((List.eraseIdx_sublist _ _).subset hy), h.pending.insert hseq, h.flushing, h.sent⟩

theorem AckInv.takeAcks {n : Net} (h : n.AckInv) : n.takeAcks.AckInv := by
  unfold Net.takeAcks
  split_ifs
  · exact h
  · refine ⟨h.arriving, acks_new _, ?_, h.sent⟩
    intro f hf
    rcases List.mem_append.1 hf with hf | hf
    · exact h.flushing f hf
    · rw [List.mem_singleton.1 hf]
      exact h.pending

theorem AckInv.sendAcks {n : Net} (h : n.AckInv) (env : Env) : (n.sendAcks env).AckInv := by
  rcases sendAcks_cases n env with he | ⟨l, ids, rest, hf, he⟩
  · rw [he]
    exact h
  · have hl : Acks n.accepted l := h.flushing (l, ids) (by rw [hf]; exact List.mem_cons_self)
    have hrest : ∀ f ∈ rest, Acks n.accepted f.1 := fun f hm => h.flushing f (by rw [hf]; exact List.mem_cons_of_mem _ hm)
    rcases he with he | he <;> rw [he]
    · exact ⟨h.arriving, h.pending, hrest, h.sent⟩
    · refine ⟨h.arriving, h.pending, hrest, ?_⟩
      intro b hb
      rcases List.mem_append.1 hb with hb | hb
      · exact h.sent b hb
      · exact ⟨l, List.mem_singleton.1 hb, hl⟩

/-- the steps of the sender do not touch what the invariant is about -/
theorem AckInv.sender {n m : Net} (h : n.AckInv) (h1 : m.receiver = n.receiver) (h2 : m.arriving = n.arriving)
    (h3 : m.flushing = n.flushing) (h4 : m.accepted = n.accepted) : m.AckInv := by
  refine ⟨?_, ?_, ?_, ?_⟩ <;> simp only [h1, h2, h3, h4]
  · exact h.arriving
  · exact h.pending
  · exact h.flushing
  · exact h.sent

theorem ackInv_step (n : Net) (op : Op) (h : n.AckInv) : (n.step op).AckInv := by
  cases op with
  | alloc payload split => exact h.sender rfl rfl rfl rfl
  | transmit i env =>
    rcases transmit_cases n i env with he | ⟨x, -, -, he⟩ | he <;> simp only [step, he]
    · exact h
    · exact h.sender rfl rfl rfl rfl
    · exact h.sender rfl rfl rfl rfl
  | track i env =>
    rcases track_cases n i env with he | ⟨x, -, -, he⟩ <;> simp only [step, he]
    · exact h
    · exact h.sender rfl rfl rfl rfl
  | expire env => exact h.sender rfl rfl rfl rfl
  | resend env =>
    rcases resend_cases n env with he | ⟨id, packet, rest, -, he⟩ | he <;> simp only [step, he]
    · exact h
    · exact h.sender rfl rfl rfl rfl
    · exact h.sender rfl rfl rfl rfl
  | arrive k => exact h.arrive k
  | record i => exact h.record i
  | takeAcks => exact h.takeAcks
  | sendAcks env => exact h.sendAcks env
  | ackArrive k =>
    rcases ackArrive_cases n k with he | ⟨packet, ids, ranges, -, -, -, he⟩ <;> simp only [step, he]
    · exact h
    · exact h.sender rfl rfl rfl rfl

theorem ackInv_run (mtu mtu' : UInt16) (t t' : Nat) (ops : List Op) : ((init mtu mtu' t t').run ops).AckInv :=
  Machine.run_inv ackInv_step (ackInv_init mtu mtu' t t') ops

/-- only an ACK takes numbers out of the send queue -/
theorem contains_step {n : Net} {op : Op} {s : Nat} (hop : ∀ k, op ≠ .ackArrive k)
    (h : n.sender.shared.sendQueue.contains s = true) : (n.step op).sender.shared.sendQueue.contains s = true := by
  cases op with
  | alloc payload split => exact h
  | transmit i env =>
    rcases transmit_cases n i env with he | ⟨x, -, -, he⟩ | he <;> simp only [step, he] <;> exact h
  | track i env =>
    rcases track_cases n i env with he | ⟨x, -, -, he⟩ <;> simp only [step, he]
    · exact h
    · show (n.sender.shared.sendQueue.insert env.now x.seq.get x.datagram).2.contains s = true
      rcases SendQueue.insert_cases n.sender.shared.sendQueue env.now x.seq.get x.datagram with
        ⟨-, hq⟩ | ⟨-, -, -, hq⟩
      · rw [hq]
        exact h
      · obtain ⟨b, hb⟩ := (SendQueue.contains_iff _ s).1 h
        rw [SendQueue.contains_iff, hq]
        by_cases hs : s = x.seq.get
        · exact ⟨x.datagram, if_pos hs⟩
        · exact ⟨b, by rw [if_neg hs, hb]⟩
  | expire env =>
    show (n.sender.shared.sendQueue.getExpired _ _ _).2.contains s = true
    rw [SendQueue.contains_getExpired]
    exact h
  | resend env =>
    rcases resend_cases n env with he | ⟨id, packet, rest, -, he⟩ | he <;> simp only [step, he] <;> exact h
  | arrive k =>
    rcases arrive_cases n k with he | ⟨packet, seq, data, -, -, ⟨-, he⟩ | ⟨id, -, -, he⟩⟩ <;> simp only [step, he] <;>
      exact h
  | record i =>
    rcases record_cases n i with he | ⟨id, seq, -, he⟩ <;> simp only [step, he] <;> exact h
  | takeAcks =>
    simp only [step, Net.takeAcks]
    split_ifs <;> exact h
  | sendAcks env =>
    rcases sendAcks_cases n env with he | ⟨l, ids, rest, -, he | he⟩ <;> simp only [step, he] <;> exact h
  | ackArrive k => exact absurd rfl (hop k)

/-- **No false acknowledgement.** In every run, whatever step takes a number out of the send queue, the receiver had
accepted that number before. -/
theorem acknowledged_was_accepted (mtu mtu' : UInt16) (t t' : Nat) (ops : List Op) (op : Op) (s : Nat)
    (hin : ((init mtu mtu' t t').run ops).sender.shared.sendQueue.contains s = true)
    (hout : (((init mtu mtu' t t').run ops).step op).sender.shared.sendQueue.contains s = false) :
    s ∈ ((init mtu mtu' t t').run ops).accepted := by
  have hinv := ackInv_run mtu mtu' t t' ops
  generalize (init mtu mtu' t t').run ops = n at hin hout hinv ⊢
  by_cases hop : ∀ k, op ≠ .ackArrive k
  · rw [contains_step hop hin] at hout
    cases hout
  simp only [not_forall, not_not] at hop
  obtain ⟨k, rfl⟩ := hop
  rcases ackArrive_cases n k with he | ⟨packet, ids, ranges, hp, -, hd, he⟩ <;> simp only [step, he] at hout
  · rw [hin] at hout
    cases hout
  · -- the packet encodes a list of accepted numbers, and what decodes from it covers nothing else
    obtain ⟨l, rfl, hl⟩ := hinv.sent packet (List.mem_of_getElem? hp)
    obtain ⟨-, hri, hsub⟩ := decodeAckNack_encodeAck hl.1 hd
    have hcov : ranges.covers s = true := by
      by_contra hc
      have hstays := (Conn.contains_ackQueue n.sender.shared.sendQueue ranges s).2 ⟨hin, by simpa using hc⟩
      exact Bool.false_ne_true (hout.symm.trans hstays)
    obtain ⟨x, rfl, hx⟩ := AckRangeList.mem_of_covers hri hcov
    exact hl.2 x (hsub x hx)

/-- one datagram sent, accepted, acknowledged, and gone from the queue -/
theorem acknowledged_was_accepted_once :
    0 ∈ ((init 1400 1400 0 0).run [.alloc [1] none, .transmit 0 Conn.quietEnv, .track 0 Conn.quietEnv, .arrive 0,
      .record 0, .takeAcks, .sendAcks Conn.quietEnv]).accepted :=
  acknowledged_was_accepted 1400 1400 0 0 _ (.ackArrive 0) 0 (by decide +kernel) (by decide +kernel)

end Net

end RakNet
