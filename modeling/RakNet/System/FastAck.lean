/-
An ACK that overtakes its own send.

`send_reliable_frame` hands the datagram to the socket first and inserts it into the send queue afterwards. The ACK can
be processed by the receive task in between: it finds nothing to remove, and the insertion that follows keeps the
datagram in the queue although it was acknowledged.

- `answered_not_queued`: along every run in which no ACK is processed for a datagram that is not yet inserted, an
  acknowledged datagram is not in the queue.
- `fast_ack_lost`: the run in which the ACK comes first.
-/
import RakNet.System.Net

namespace RakNet

open Lib Lib.Wire

namespace Net

/-- the queue holds an entry that was inserted for this datagram -/
def Holds (n : Net) (id : Nat) : Prop :=
  n.sender.shared.sendQueue.contains (id % 2 ^ 24) = true ∧ n.holder[id % 2 ^ 24]? = some id

/-- identities: each send has its own, with its sequence number, and nothing carries one that was not allocated -/
structure IdInv (n : Net) : Prop where
  counter : n.sender.shared.sendSeq.raw = n.allocated % 2 ^ 32
  sending : ∀ x ∈ n.sending, x.id < n.allocated ∧ x.seq.get = x.id % 2 ^ 24
  holder : ∀ s, n.sender.shared.sendQueue.contains s = true →
    ∃ id, n.holder[s]? = some id ∧ id < n.allocated ∧ id % 2 ^ 24 = s
  resending : ∀ r ∈ n.resending, r.1 < n.allocated
  sentIds : ∀ id ∈ n.sentIds, id < n.allocated
  arriving : ∀ y ∈ n.arriving, y.1 < n.allocated
  pendingIds : ∀ id ∈ n.pendingIds, id < n.allocated
  flushing : ∀ f ∈ n.flushing, ∀ id ∈ f.2, id < n.allocated
  ackIds : ∀ ids ∈ n.ackIds, ∀ id ∈ ids, id < n.allocated

theorem idInv_init (mtu mtu' : UInt16) (t t' : Nat) : (init mtu mtu' t t').IdInv := by
  refine ⟨by simp [init, Conn.new, SharedState.new, AtomicU24.new], ?_, fun s hs => ?_, ?_, ?_, ?_, ?_, ?_, ?_⟩
  case refine_2 =>
    obtain ⟨b, hb⟩ := (SendQueue.contains_iff _ s).1 hs
    have := SendQueue.packet?_new s
    simp only [init, Conn.new, SharedState.new] at hb
    rw [this] at hb
    cases hb
  all_goals simp [init]

theorem load_counter {n : Net} (h : n.IdInv) : n.sender.shared.sendSeq.load.get = n.allocated % 2 ^ 24 := by
  rw [AtomicU24.load, U24.get_new, h.counter]
  omega

theorem IdInv.alloc {n : Net} (h : n.IdInv) (payload : Bytes) (split : Option SplitInfo) :
    (n.alloc payload split).IdInv := by
  rw [alloc_eq]
  have hlt : ∀ {a : Nat}, a < n.allocated → a < n.allocated + 1 := fun ha => Nat.lt_succ_of_lt ha
  refine ⟨?_, ?_, ?_, fun r hr => hlt (h.resending r hr), fun i hi => hlt (h.sentIds i hi),
    fun y hy => hlt (h.arriving y hy), fun i hi => hlt (h.pendingIds i hi), fun f hf i hi => hlt (h.flushing f hf i hi),
    fun l hl i hi => hlt (h.ackIds l hl i hi)⟩
  · simp only [Conn.allocated, AtomicU24.fetchAdd, wrappingAdd, h.counter]
    omega
  · intro x hx
    rcases List.mem_append.1 hx with hx | hx
    · exact ⟨hlt (h.sending x hx).1, (h.sending x hx).2⟩
    · rw [List.mem_singleton.1 hx]
      exact ⟨Nat.lt_succ_self _, load_counter h⟩
  · intro s hs
    obtain ⟨id, h1, h2, h3⟩ := h.holder s hs
    exact ⟨id, h1, hlt h2, h3⟩

theorem IdInv.track {n : Net} (h : n.IdInv) (i : Nat) (env : Env) : (n.track i env).IdInv := by
  rcases track_cases n i env with he | ⟨x, hx, -, he⟩ <;> rw [he]
  · exact h
  · obtain ⟨hid, hseq⟩ := h.sending x (List.mem_of_getElem? hx)
    refine ⟨h.counter, fun y hy => h.sending y ((List.eraseIdx_sublist _ _).subset hy), ?_, h.resending,
      h.sentIds, h.arriving, h.pendingIds, h.flushing, h.ackIds⟩
    intro s hs
    have hs' : (n.sender.shared.sendQueue.insert env.now x.seq.get x.datagram).2.contains s = true := hs
    rcases SendQueue.insert_cases n.sender.shared.sendQueue env.now x.seq.get x.datagram with
      ⟨-, hq⟩ | ⟨-, hq1, -, hq⟩
    · rw [hq] at hs'
      simp only [hq, Bool.false_eq_true, if_false]
      exact h.holder s hs'
    · simp only [hq1, if_true, NatMap.get?_insert]
      by_cases hsx : x.seq.get = s
      · exact ⟨x.id, if_pos hsx, hid, by rw [← hseq, hsx]⟩
      · rw [SendQueue.contains_iff, hq, if_neg (Ne.symm hsx), ← SendQueue.contains_iff] at hs'
        rw [if_neg hsx]
        exact h.holder s hs'

theorem IdInv.transmit {n : Net} (h : n.IdInv) (i : Nat) (env : Env) : (n.transmit i env).IdInv := by
  rcases transmit_cases n i env with he | ⟨x, hx, -, he⟩ | he <;> rw [he]
  · exact h
  · have hxi := h.sending x (List.mem_of_getElem? hx)
    refine ⟨h.counter, ?_, h.holder, h.resending, List.forall_mem_append.2 ⟨h.sentIds, List.forall_mem_singleton.2 hxi.1⟩,
      h.arriving, h.pendingIds, h.flushing, h.ackIds⟩
    intro y hy
    rcases List.mem_or_eq_of_mem_set hy with hy | rfl
    · exact h.sending y hy
    · exact hxi
  · exact ⟨h.counter, fun y hy => h.sending y ((List.eraseIdx_sublist _ _).subset hy), h.holder, h.resending,
      h.sentIds, h.arriving, h.pendingIds, h.flushing, h.ackIds⟩

theorem IdInv.expire {n : Net} (h : n.IdInv) (env : Env) : (n.expire env).IdInv := by
  refine ⟨h.counter, h.sending, fun s hs => h.holder s ((SendQueue.contains_getExpired _ _ _ _ s).1 hs), ?_, h.sentIds, h.arriving,
    h.pendingIds, h.flushing, h.ackIds⟩
  refine List.forall_mem_append.2 ⟨h.resending, ?_⟩
  intro r hr
  -- a collected packet belongs to the datagram its key was inserted for
  obtain ⟨⟨s, b⟩, he, rfl⟩ := List.mem_map.1 hr
  have hin : n.sender.shared.sendQueue.contains s = true :=
    (SendQueue.contains_iff _ s).2 ⟨b, SendQueue.mem_getExpired he⟩
  obtain ⟨id, h1, h2, -⟩ := h.holder s hin
  show (n.holder[s]?).getD 0 < n.allocated
  rw [h1]
  exact h2

theorem IdInv.resend {n : Net} (h : n.IdInv) (env : Env) : (n.resend env).IdInv := by
  rcases resend_cases n env with he | ⟨id, packet, rest, hr, he⟩ | he <;> rw [he]
  · exact h
  · have hresending := h.resending
    rw [hr] at hresending
    obtain ⟨hid, hrest⟩ := List.forall_mem_cons.1 hresending
    exact ⟨h.counter, h.sending, h.holder, hrest, List.forall_mem_append.2 ⟨h.sentIds, List.forall_mem_singleton.2 hid⟩,
      h.arriving, h.pendingIds, h.flushing, h.ackIds⟩
  · exact ⟨h.counter, h.sending, h.holder, by simp, h.sentIds, h.arriving, h.pendingIds, h.flushing, h.ackIds⟩

theorem IdInv.arrive {n : Net} (h : n.IdInv) (k : Nat) : (n.arrive k).IdInv := by
  rcases arrive_cases n k with he | ⟨packet, seq, data, -, -, ⟨-, he⟩ | ⟨id, hid, -, he⟩⟩ <;> rw [he]
  · exact h
  · exact ⟨h.counter, h.sending, h.holder, h.resending, h.sentIds, h.arriving, h.pendingIds, h.flushing, h.ackIds⟩
  · have hsent := h.sentIds id (List.mem_of_getElem? hid)
    exact ⟨h.counter, h.sending, h.holder, h.resending, h.sentIds,
      List.forall_mem_append.2 ⟨h.arriving, List.forall_mem_singleton.2 hsent⟩, h.pendingIds, h.flushing, h.ackIds⟩

theorem IdInv.record {n : Net} (h : n.IdInv) (i : Nat) : (n.record i).IdInv := by
  rcases record_cases n i with he | ⟨id, seq, hi, he⟩ <;> rw [he]
  · exact h
  · have hid := h.arriving (id, seq) (List.mem_of_getElem? hi)
    exact ⟨h.counter, h.sending, h.holder, h.resending, h.sentIds,
      fun y hy => h.arriving y ((List.eraseIdx_sublist _ _).subset hy),
      List.forall_mem_append.2 ⟨h.pendingIds, List.forall_mem_singleton.2 hid⟩, h.flushing, h.ackIds⟩

theorem IdInv.takeAcks {n : Net} (h : n.IdInv) : n.takeAcks.IdInv := by
  unfold Net.takeAcks
  split_ifs
  · exact h
  · exact ⟨h.counter, h.sending, h.holder, h.resending, h.sentIds, h.arriving, by simp,
      List.forall_mem_append.2 ⟨h.flushing, List.forall_mem_singleton.2 h.pendingIds⟩, h.ackIds⟩

theorem IdInv.sendAcks {n : Net} (h : n.IdInv) (env : Env) : (n.sendAcks env).IdInv := by
  rcases sendAcks_cases n env with he | ⟨l, ids, rest, hf, he⟩
  · rw [he]
    exact h
  · have hflushing := h.flushing
    rw [hf] at hflushing
    obtain ⟨hids, hrest⟩ := List.forall_mem_cons.1 hflushing
    rcases he with he | he <;> rw [he]
    · exact ⟨h.counter, h.sending, h.holder, h.resending, h.sentIds, h.arriving, h.pendingIds, hrest, h.ackIds⟩
    · exact ⟨h.counter, h.sending, h.holder, h.resending, h.sentIds, h.arriving, h.pendingIds, hrest,
        List.forall_mem_append.2 ⟨h.ackIds, List.forall_mem_singleton.2 hids⟩⟩

theorem IdInv.ackArrive {n : Net} (h : n.IdInv) (k : Nat) : (n.ackArrive k).IdInv := by
  rcases ackArrive_cases n k with he | ⟨packet, ids, ranges, -, -, -, he⟩ <;> rw [he]
  · exact h
  · exact ⟨h.counter, h.sending, fun s hs => h.holder s ((Conn.contains_ackQueue _ _ s).1 hs).1, h.resending, h.sentIds, h.arriving,
      h.pendingIds, h.flushing, h.ackIds⟩

theorem idInv_step (n : Net) (op : Op) (h : n.IdInv) : (n.step op).IdInv := by
  cases op with
  | alloc payload split => exact h.alloc payload split
  | transmit i env => exact h.transmit i env
  | track i env => exact h.track i env
  | expire env => exact h.expire env
  | resend env => exact h.resend env
  | arrive k => exact h.arrive k
  | record i => exact h.record i
  | takeAcks => exact h.takeAcks
  | sendAcks env => exact h.sendAcks env
  | ackArrive k => exact h.ackArrive k

/-! ## Acknowledged datagrams -/

/-- **The condition.** The ACK being processed does not answer a datagram that is still between its transmission and its
insertion into the queue. -/
def NotEarly (n : Net) : Op → Prop
  | .ackArrive k => ∀ packet ids ranges, n.receiver.sent[k]? = some packet → n.ackIds[k]? = some ids →
      decodeAckNack (packet.take Conn.recvBufferSize) = .ok (true, ranges) →
      ∀ x ∈ n.sending, x.id ∈ ids → ranges.covers (x.id % 2 ^ 24) = false
  | _ => True

/-- an answered datagram has left the send path and is not in the queue -/
def Settled (n : Net) : Prop := ∀ id ∈ n.answered, id < n.allocated ∧ (∀ x ∈ n.sending, x.id ≠ id) ∧ ¬ n.Holds id

theorem Settled.same {n m : Net} (h : n.Settled) (h1 : m.answered = n.answered) (h2 : n.allocated ≤ m.allocated)
    (h3 : ∀ x ∈ m.sending, (∃ y ∈ n.sending, y.id = x.id) ∨ n.allocated ≤ x.id)
    (h4 : ∀ id, m.Holds id → n.Holds id ∨ ∃ x ∈ n.sending, x.id = id) : m.Settled := by
  intro id hid
  rw [h1] at hid
  obtain ⟨hlt, hsend, hhold⟩ := h id hid
  refine ⟨Nat.lt_of_lt_of_le hlt h2, ?_, ?_⟩
  · intro x hx he
    rcases h3 x hx with ⟨y, hy, hyx⟩ | hge
    · exact hsend y hy (hyx.trans he)
    · rw [he] at hge
      exact absurd hlt (Nat.not_lt.2 hge)
  · intro hm
    rcases h4 id hm with hm | ⟨x, hx, he⟩
    · exact hhold hm
    · exact hsend x hx he

/-- a step that leaves the send path and the queue alone -/
theorem Settled.frame {n m : Net} (h : n.Settled) (h1 : m.answered = n.answered) (h2 : m.allocated = n.allocated)
    (h3 : m.sending = n.sending) (h4 : ∀ id, m.Holds id → n.Holds id) : m.Settled := by
  refine h.same h1 (Nat.le_of_eq h2.symm) ?_ fun id hm => Or.inl (h4 id hm)
  rw [h3]
  exact fun x hx => Or.inl ⟨x, hx, rfl⟩

theorem Settled.alloc {n : Net} (h : n.Settled) (payload : Bytes) (split : Option SplitInfo) :
    (n.alloc payload split).Settled := by
  refine h.same rfl (Nat.le_succ _) ?_ fun id hm => Or.inl hm
  rw [alloc_eq]
  exact List.forall_mem_append.2 ⟨fun x hx => Or.inl ⟨x, hx, rfl⟩, List.forall_mem_singleton.2 (Or.inr (le_refl _))⟩

theorem Settled.transmit {n : Net} (h : n.Settled) (i : Nat) (env : Env) : (n.transmit i env).Settled := by
  rcases transmit_cases n i env with he | ⟨x, hx, -, he⟩ | he <;> rw [he]
  · exact h
  · refine h.same rfl (le_refl _) ?_ fun id hm => Or.inl hm
    intro y hy
    rcases List.mem_or_eq_of_mem_set hy with hy | rfl
    · exact Or.inl ⟨y, hy, rfl⟩
    · exact Or.inl ⟨x, List.mem_of_getElem? hx, rfl⟩
  · refine h.same rfl (le_refl _) ?_ fun id hm => Or.inl hm
    exact fun x hx => Or.inl ⟨x, (List.eraseIdx_sublist _ _).subset hx, rfl⟩

/-- an insertion gives the number to the datagram that was being sent -/
theorem Settled.track {n : Net} (h : n.Settled) (i : Nat) (env : Env) : (n.track i env).Settled := by
  rcases track_cases n i env with he | ⟨x, hx, -, he⟩ <;> rw [he]
  · exact h
  · refine h.same rfl (le_refl _) (fun x hx => Or.inl ⟨x, (List.eraseIdx_sublist _ _).subset hx, rfl⟩) ?_
    rintro id ⟨hc, hh⟩
    have hc' : (n.sender.shared.sendQueue.insert env.now x.seq.get x.datagram).2.contains (id % 2 ^ 24) = true := hc
    rcases SendQueue.insert_cases n.sender.shared.sendQueue env.now x.seq.get x.datagram with
      ⟨-, hq⟩ | ⟨-, hq1, -, hq⟩
    · rw [hq] at hc'
      simp only [hq, Bool.false_eq_true, if_false] at hh
      exact Or.inl ⟨hc', hh⟩
    · simp only [hq1, if_true, NatMap.get?_insert] at hh
      split_ifs at hh with hs
      · exact Or.inr ⟨x, List.mem_of_getElem? hx, Option.some.inj hh⟩
      · rw [SendQueue.contains_iff, hq, if_neg (Ne.symm hs), ← SendQueue.contains_iff] at hc'
        exact Or.inl ⟨hc', hh⟩

theorem Settled.ackArrive {n : Net} (hi : n.IdInv) (h : n.Settled) {k : Nat} (hop : n.NotEarly (.ackArrive k)) :
    (n.ackArrive k).Settled := by
  rcases ackArrive_cases n k with he | ⟨packet, ids, ranges, hp, hids, hd, he⟩ <;> rw [he]
  · exact h
  · intro id hid
    rcases List.mem_append.1 hid with hid | hid
    · obtain ⟨hlt, hsend, hhold⟩ := h id hid
      exact ⟨hlt, hsend, fun hm => hhold ⟨((Conn.contains_ackQueue _ _ _).1 hm.1).1, hm.2⟩⟩
    · -- newly answered: its number is covered, so it is not being sent and has just left the queue
      obtain ⟨hmem, hcov⟩ := List.mem_filter.1 hid
      refine ⟨hi.ackIds ids (List.mem_of_getElem? hids) id hmem, ?_, ?_⟩
      · rintro x hx rfl
        rw [hop packet ids ranges hp hids hd x hx hmem] at hcov
        cases hcov
      · intro hm
        rw [((Conn.contains_ackQueue _ _ _).1 hm.1).2] at hcov
        cases hcov

theorem settled_step (n : Net) (op : Op) (hi : n.IdInv) (h : n.Settled) (hop : n.NotEarly op) :
    (n.step op).Settled := by
  cases op with
  | alloc payload split => exact h.alloc payload split
  | transmit i env => exact h.transmit i env
  | track i env => exact h.track i env
  | expire env => exact h.frame rfl rfl rfl fun id hm => ⟨(SendQueue.contains_getExpired _ _ _ _ _).1 hm.1, hm.2⟩
  | resend env =>
    rcases resend_cases n env with he | ⟨id, packet, rest, -, he⟩ | he <;> simp only [step, he]
    · exact h
    · exact h.frame rfl rfl rfl fun id hm => hm
    · exact h.frame rfl rfl rfl fun id hm => hm
  | arrive k =>
    rcases arrive_cases n k with he | ⟨packet, seq, data, -, -, ⟨-, he⟩ | ⟨id, -, -, he⟩⟩ <;> simp only [step, he]
    · exact h
    · exact h.frame rfl rfl rfl fun id hm => hm
    · exact h.frame rfl rfl rfl fun id hm => hm
  | record i =>
    rcases record_cases n i with he | ⟨id, seq, -, he⟩ <;> simp only [step, he]
    · exact h
    · exact h.frame rfl rfl rfl fun id hm => hm
  | takeAcks =>
    simp only [step, Net.takeAcks]
    split_ifs
    · exact h
    · exact h.frame rfl rfl rfl fun id hm => hm
  | sendAcks env =>
    rcases sendAcks_cases n env with he | ⟨l, ids, rest, -, he | he⟩ <;> simp only [step, he]
    · exact h
    · exact h.frame rfl rfl rfl fun id hm => hm
    · exact h.frame rfl rfl rfl fun id hm => hm
  | ackArrive k => exact Settled.ackArrive hi h hop

/-- the invariant of the runs that meet the condition -/
structure AnsweredInv (n : Net) : Prop where
  ids : n.IdInv
  settled : n.Settled

theorem answeredInv_run (mtu mtu' : UInt16) (t t' : Nat) {ops : List Op}
    (hops : Machine.Steps step NotEarly (init mtu mtu' t t') ops) : ((init mtu mtu' t t').run ops).AnsweredInv := by
  refine Machine.run_inv_of_steps ?_ ⟨idInv_init mtu mtu' t t', ?_⟩ hops
  · intro n op h hop
    exact ⟨idInv_step n op h.ids, settled_step n op h.ids h.settled hop⟩
  · intro id hid
    simp [init] at hid

/-- **Acknowledged datagrams are not in the queue.** In every run in which no ACK is processed between a datagram's
transmission and its insertion: a datagram whose ACK was processed is no longer being sent, and the queue holds no entry
of it; while numbers have not been used twice, its sequence number is not in the queue at all. -/
theorem answered_not_queued (mtu mtu' : UInt16) (t t' : Nat) (ops : List Op)
    (hops : Machine.Steps step NotEarly (init mtu mtu' t t') ops) :
    ∀ id ∈ ((init mtu mtu' t t').run ops).answered,
      (∀ x ∈ ((init mtu mtu' t t').run ops).sending, x.id ≠ id) ∧
      ¬ ((init mtu mtu' t t').run ops).Holds id ∧
      (((init mtu mtu' t t').run ops).allocated ≤ 2 ^ 24 →
        ((init mtu mtu' t t').run ops).sender.shared.sendQueue.contains (id % 2 ^ 24) = false) := by
  have hinv := answeredInv_run mtu mtu' t t' hops
  generalize (init mtu mtu' t t').run ops = n at hinv ⊢
  obtain ⟨hi, hs⟩ := hinv
  intro id hid
  obtain ⟨hlt, hsend, hhold⟩ := hs id hid
  refine ⟨hsend, hhold, ?_⟩
  intro hsmall
  by_contra hc
  obtain ⟨id', h1, h2, h3⟩ := hi.holder (id % 2 ^ 24) (by simpa using hc)
  -- below 2^24 a datagram is its own sequence number
  have hsame : id' = id := by
    rwa [Nat.mod_eq_of_lt (Nat.lt_of_lt_of_le h2 hsmall), Nat.mod_eq_of_lt (Nat.lt_of_lt_of_le hlt hsmall)] at h3
  subst hsame
  exact hhold ⟨by simpa using hc, h1⟩

/-- sent, tracked, accepted, acknowledged: the order the code expects -/
def trackedFirst : List Op :=
  [.alloc [1] none, .transmit 0 Conn.quietEnv, .track 0 Conn.quietEnv, .arrive 0, .record 0, .takeAcks,
    .sendAcks Conn.quietEnv, .ackArrive 0]

/-- the same with the insertion last -/
def ackFirst : List Op :=
  [.alloc [1] none, .transmit 0 Conn.quietEnv, .arrive 0, .record 0, .takeAcks, .sendAcks Conn.quietEnv, .ackArrive 0,
    .track 0 Conn.quietEnv]

theorem answered_not_queued_tracked_first :
    0 ∈ ((init 1400 1400 0 0).run trackedFirst).answered ∧
    ((init 1400 1400 0 0).run trackedFirst).sender.shared.sendQueue.contains 0 = false := by
  have hmem : 0 ∈ ((init 1400 1400 0 0).run trackedFirst).answered := by decide +kernel
  refine ⟨hmem, (answered_not_queued 1400 1400 0 0 trackedFirst ?_ 0 hmem).2.2 (by decide +kernel)⟩
  refine ⟨trivial, trivial, trivial, trivial, trivial, trivial, trivial, ?_, trivial⟩
  intro packet ids ranges _ _ _ x hx
  have hnone : ((init 1400 1400 0 0).run (trackedFirst.take 7)).sending = [] := by decide +kernel
  have hx' : x ∈ ((init 1400 1400 0 0).run (trackedFirst.take 7)).sending := hx
  rw [hnone] at hx'
  cases hx'

/-- **A lost acknowledgement.** The ACK of datagram 0 is processed before the insertion; the send returns, and the
acknowledged number stays in the queue. -/
theorem fast_ack_lost :
    0 ∈ ((init 1400 1400 0 0).run ackFirst).answered ∧ ((init 1400 1400 0 0).run ackFirst).sending = [] ∧
    ((init 1400 1400 0 0).run ackFirst).sender.shared.sendQueue.contains 0 = true ∧
    ¬ ∀ ops, ∀ id ∈ ((init 1400 1400 0 0).run ops).answered, (∀ x ∈ ((init 1400 1400 0 0).run ops).sending, x.id ≠ id) →
      ((init 1400 1400 0 0).run ops).sender.shared.sendQueue.contains (id % 2 ^ 24) = false := by
  have h1 : 0 ∈ ((init 1400 1400 0 0).run ackFirst).answered := by decide +kernel
  have h2 : ((init 1400 1400 0 0).run ackFirst).sending = [] := by decide +kernel
  have h3 : ((init 1400 1400 0 0).run ackFirst).sender.shared.sendQueue.contains 0 = true := by decide +kernel
  refine ⟨h1, h2, h3, ?_⟩
  intro h
  have hgone := h ackFirst 0 h1 (by rw [h2]; simp)
  rw [Nat.zero_mod, h3] at hgone
  cases hgone

end Net

end RakNet
