/-
Outstanding datagrams and the receiver's base.

The sender bounds the number of outstanding packets (2048 entries in the queue); the receiver refuses what lies before
the base of its window, and a number 2048 or more past the base moves the base to 1024 before it. Nothing keeps the
outstanding numbers within the span of the window, so an arrival far ahead can put the base past a datagram that is
still waiting to be retransmitted.

- `outstanding_accepted`: along every run in which an arrival that moves the window leaves no unaccepted outstanding
  number behind, an outstanding datagram that arrives for the first time is accepted.
- `outstanding_refused`: 2049 sends, and the last one arrives first.
-/
import RakNet.System.FastAck

namespace RakNet

open Lib Lib.Wire

namespace Net

/-- `b` is the datagram of an allocated number -/
def Datagram (bound : Nat) (b : Bytes) : Prop := ∃ seq frames, b = encodeDatagram seq frames ∧ seq.get < bound

theorem Datagram.mono {a b : Nat} (hab : a ≤ b) {d : Bytes} (h : Datagram a d) : Datagram b d := by
  obtain ⟨seq, frames, he, hlt⟩ := h
  exact ⟨seq, frames, he, Nat.lt_of_lt_of_le hlt hab⟩

/-- in the queue, or on its way there -/
def Outstanding (n : Net) (t : Nat) : Prop :=
  n.sender.shared.sendQueue.contains t = true ∨ ∃ x ∈ n.sending, x.seq.get = t

/-- the window with the log of what it accepted -/
def window (n : Net) : RecvWindow.Track 2048 := ⟨n.receiver.shared.recvWindow, n.accepted⟩

/-- everything on the way is a datagram of an allocated number, and no unaccepted outstanding number lies before the
base -/
structure SpanInv (n : Net) : Prop where
  sent : ∀ b ∈ n.sender.sent, Datagram n.allocated b
  sending : ∀ x ∈ n.sending, Datagram n.allocated x.datagram
  queue : ∀ s b, n.sender.shared.sendQueue.packet? s = some b → Datagram n.allocated b
  resending : ∀ r ∈ n.resending, Datagram n.allocated r.2
  sound : n.window.Sound
  base_le : n.receiver.shared.recvWindow.baseSeq ≤ n.allocated
  outstanding : ∀ t, n.Outstanding t → t ∉ n.accepted → n.receiver.shared.recvWindow.baseSeq ≤ t

theorem spanInv_init (mtu mtu' : UInt16) (t t' : Nat) : (init mtu mtu' t t').SpanInv where
  sent := by simp [init, Conn.new]
  sending := by simp [init]
  queue := by
    intro s b hb
    simp only [init, Conn.new, SharedState.new, SendQueue.packet?_new] at hb
    cases hb
  resending := by simp [init]
  sound := RecvWindow.Track.sound_init 2048
  base_le := Nat.zero_le _
  outstanding := fun _ _ _ => Nat.zero_le _

/-- **The condition.** An arrival that moves the window (2048 or more past its base) leaves no unaccepted outstanding
number more than 1024 before it. -/
def InSpan (n : Net) : Op → Prop
  | .arrive k => ∀ packet seq data, n.sender.sent[k]? = some packet →
      decodeDatagram (packet.take Conn.recvBufferSize) = .ok (seq, data) →
      n.receiver.shared.recvWindow.tooOld seq.get = false → 2048 ≤ n.receiver.shared.recvWindow.offset seq.get →
      ∀ t, n.Outstanding t → t ∉ n.accepted → seq.get ≤ t + 1024
  | _ => True

/-- the number a packet of the sender decodes to is an allocated one -/
theorem SpanInv.decode_lt {n : Net} (h : n.SpanInv) {k : Nat} {packet data : Bytes} {seq : U24}
    (hp : n.sender.sent[k]? = some packet)
    (hd : decodeDatagram (packet.take Conn.recvBufferSize) = .ok (seq, data)) : seq.get < n.allocated := by
  obtain ⟨seq', frames, rfl, hlt⟩ := h.sent packet (List.mem_of_getElem? hp)
  rw [decodeDatagram_take _ _ (by decide)] at hd
  simp only [Outcome.ok.injEq, Prod.mk.injEq] at hd
  rw [← hd.1]
  exact hlt

/-- arrivals and the window: every other component stays -/
theorem SpanInv.arrive {n : Net} (h : n.SpanInv) (hsmall : n.allocated < 2 ^ 23) (k : Nat) (hop : n.InSpan (.arrive k)) :
    (n.arrive k).SpanInv := by
  rcases arrive_cases n k with he | ⟨packet, seq, data, hp, hd, hc⟩
  · rw [he]
    exact h
  have hlt := h.decode_lt hp hd
  have hs : seq.get < 2 ^ 23 := Nat.lt_trans hlt hsmall
  have hsound := RecvWindow.Track.step_sound (by norm_num) (by norm_num) h.sound hs
  rcases hc with ⟨hans, he⟩ | ⟨id, -, hans, he⟩ <;> rw [he]
  · -- refused: the base and the log stay
    rw [RecvWindow.Track.step_refused (t := n.window) hans] at hsound
    have hbase : (n.receiver.shared.recvWindow.markReceived seq.get).2.baseSeq =
        n.receiver.shared.recvWindow.baseSeq := by
      rcases RecvWindow.markReceived_cases n.receiver.shared.recvWindow seq.get (by norm_num) with
        ⟨-, hm⟩ | ⟨-, -, hm⟩ | ⟨-, _, -, hm⟩ | ⟨-, _, -, hm⟩ <;> rw [hm] at hans ⊢
      · exact absurd rfl hans
      · exact absurd rfl hans
    refine ⟨h.sent, h.sending, h.queue, h.resending, hsound, ?_, ?_⟩
    · exact hbase.symm ▸ h.base_le
    · intro t ht hn
      exact hbase.symm ▸ h.outstanding t ht hn
  · rw [RecvWindow.Track.step_accepted (t := n.window) hans] at hsound
    have hold := fun t (hn : t ∉ n.accepted ++ [seq.get]) => (fun hm => hn (List.mem_append_left _ hm) : t ∉ n.accepted)
    rcases RecvWindow.markReceived_cases n.receiver.shared.recvWindow seq.get (by norm_num) with
      ⟨-, hm⟩ | ⟨hto, hoff, hm⟩ | ⟨-, _, -, hm⟩ | ⟨-, _, -, hm⟩
    · rw [hm] at hans
      cases hans
    · -- the window moves: the condition is about exactly this arrival
      have hle := h.sound.base_le hs hto
      have hoff' := RecvWindow.offset_of_le n.receiver.shared.recvWindow hs hle
      have hbase : (n.receiver.shared.recvWindow.markReceived seq.get).2.baseSeq = seq.get - 1024 := by
        rw [hm, RecvWindow.reset_baseSeq]
        omega
      refine ⟨h.sent, h.sending, h.queue, h.resending, hsound, ?_, ?_⟩
      · show (n.receiver.shared.recvWindow.markReceived seq.get).2.baseSeq ≤ n.allocated
        omega
      · intro t ht hn
        show (n.receiver.shared.recvWindow.markReceived seq.get).2.baseSeq ≤ t
        have := hop packet seq data hp hd hto hoff t ht (hold t hn)
        omega
    · rw [hm] at hans
      cases hans
    · have hbase : (n.receiver.shared.recvWindow.markReceived seq.get).2.baseSeq =
          n.receiver.shared.recvWindow.baseSeq := by
        rw [hm]
        rfl
      refine ⟨h.sent, h.sending, h.queue, h.resending, hsound, ?_, ?_⟩
      · exact hbase.symm ▸ h.base_le
      · intro t ht hn
        exact hbase.symm ▸ h.outstanding t ht (hold t hn)

/-- the steps that leave the receiver's window and the log alone -/
theorem SpanInv.sender {n m : Net} (h : n.SpanInv) (h1 : m.receiver.shared.recvWindow = n.receiver.shared.recvWindow)
    (h2 : m.accepted = n.accepted) (h3 : n.allocated ≤ m.allocated)
    (hsent : ∀ b ∈ m.sender.sent, Datagram m.allocated b)
    (hsending : ∀ x ∈ m.sending, Datagram m.allocated x.datagram)
    (hqueue : ∀ s b, m.sender.shared.sendQueue.packet? s = some b → Datagram m.allocated b)
    (hresending : ∀ r ∈ m.resending, Datagram m.allocated r.2)
    (hout : ∀ t, m.Outstanding t → n.Outstanding t ∨ n.allocated ≤ t) : m.SpanInv where
  sent := hsent
  sending := hsending
  queue := hqueue
  resending := hresending
  sound := by
    have hw : m.window = n.window := by rw [window, window, h1, h2]
    rw [hw]
    exact h.sound
  base_le := by
    rw [h1]
    exact Nat.le_trans h.base_le h3
  outstanding := by
    intro t ht hn
    rw [h1]
    rw [h2] at hn
    rcases hout t ht with ht | ht
    · exact h.outstanding t ht hn
    · exact Nat.le_trans h.base_le ht

theorem SpanInv.alloc {n : Net} (h : n.SpanInv) (hi : n.IdInv) (hsmall : n.allocated < 2 ^ 23) (payload : Bytes)
    (split : Option SplitInfo) : (n.alloc payload split).SpanInv := by
  rw [alloc_eq]
  have hle := Nat.le_succ n.allocated
  have hnew : n.sender.shared.sendSeq.load.get = n.allocated := by
    rw [load_counter hi]
    exact Nat.mod_eq_of_lt (Nat.lt_trans hsmall (by norm_num))
  refine h.sender rfl rfl hle (fun b hb => (h.sent b hb).mono hle) ?_
    (fun s b hb => (h.queue s b hb).mono hle) (fun r hr => (h.resending r hr).mono hle) ?_
  · intro x hx
    rcases List.mem_append.1 hx with hx | hx
    · exact (h.sending x hx).mono hle
    · rw [List.mem_singleton.1 hx]
      exact ⟨_, _, rfl, by rw [hnew]; exact Nat.lt_succ_self _⟩
  · intro t ht
    rcases ht with ht | ⟨x, hx, ht⟩
    · exact Or.inl (Or.inl ht)
    · rcases List.mem_append.1 hx with hx | hx
      · exact Or.inl (Or.inr ⟨x, hx, ht⟩)
      · rw [List.mem_singleton.1 hx] at ht
        exact Or.inr (Nat.le_of_eq (hnew.symm.trans ht))

theorem SpanInv.track {n : Net} (h : n.SpanInv) (i : Nat) (env : Env) : (n.track i env).SpanInv := by
  rcases track_cases n i env with he | ⟨x, hx, -, he⟩ <;> rw [he]
  · exact h
  have hxm := List.mem_of_getElem? hx
  have hsub : ∀ y ∈ n.sending.eraseIdx i, y ∈ n.sending := fun y hy => (List.eraseIdx_sublist _ _).subset hy
  have hq : ∀ s b, (n.sender.shared.sendQueue.insert env.now x.seq.get x.datagram).2.packet? s = some b →
      n.sender.shared.sendQueue.packet? s = some b ∨ (s = x.seq.get ∧ b = x.datagram) := by
    intro s b hb
    rcases SendQueue.insert_cases n.sender.shared.sendQueue env.now x.seq.get x.datagram with
      ⟨-, hq⟩ | ⟨-, -, -, hq⟩
    · rw [hq] at hb
      exact Or.inl hb
    · rw [hq] at hb
      split_ifs at hb with hs
      · exact Or.inr ⟨hs, (Option.some.inj hb).symm⟩
      · exact Or.inl hb
  refine h.sender rfl rfl (le_refl _) h.sent (fun y hy => h.sending y (hsub y hy)) ?_ h.resending
    fun t ht => Or.inl ?_
  · intro s b hb
    rcases hq s b hb with hb | ⟨-, rfl⟩
    · exact h.queue s b hb
    · exact h.sending x hxm
  · rcases ht with ht | ⟨y, hy, ht⟩
    · obtain ⟨b, hb⟩ := (SendQueue.contains_iff _ t).1 ht
      rcases hq t b hb with hb | ⟨rfl, -⟩
      · exact Or.inl ((SendQueue.contains_iff _ t).2 ⟨b, hb⟩)
      · exact Or.inr ⟨x, hxm, rfl⟩
    · exact Or.inr ⟨y, hsub y hy, ht⟩

theorem SpanInv.transmit {n : Net} (h : n.SpanInv) (i : Nat) (env : Env) : (n.transmit i env).SpanInv := by
  rcases transmit_cases n i env with he | ⟨x, hx, -, he⟩ | he <;> rw [he]
  · exact h
  · have hxm := List.mem_of_getElem? hx
    have hset : ∀ y ∈ n.sending.set i { x with sent := true },
        ∃ z ∈ n.sending, z.seq = y.seq ∧ z.datagram = y.datagram := by
      intro y hy
      rcases List.mem_or_eq_of_mem_set hy with hy | rfl
      · exact ⟨y, hy, rfl, rfl⟩
      · exact ⟨x, hxm, rfl, rfl⟩
    refine h.sender rfl rfl (le_refl _)
      (List.forall_mem_append.2 ⟨h.sent, List.forall_mem_singleton.2 (h.sending x hxm)⟩) ?_ h.queue h.resending
      fun t ht => Or.inl ?_
    · intro y hy
      obtain ⟨z, hz, -, hd⟩ := hset y hy
      exact hd ▸ h.sending z hz
    · rcases ht with ht | ⟨y, hy, ht⟩
      · exact Or.inl ht
      · obtain ⟨z, hz, hseq, -⟩ := hset y hy
        exact Or.inr ⟨z, hz, by rw [hseq]; exact ht⟩
  · have hsub : ∀ y ∈ n.sending.eraseIdx i, y ∈ n.sending := fun y hy => (List.eraseIdx_sublist _ _).subset hy
    refine h.sender rfl rfl (le_refl _) h.sent (fun y hy => h.sending y (hsub y hy)) h.queue h.resending
      fun t ht => Or.inl ?_
    rcases ht with ht | ⟨y, hy, ht⟩
    · exact Or.inl ht
    · exact Or.inr ⟨y, hsub y hy, ht⟩

/-- a queue that holds no more than before -/
theorem Outstanding.of_queue {n m : Net} {t : Nat} (h : m.Outstanding t)
    (hq : ∀ t, m.sender.shared.sendQueue.contains t = true → n.sender.shared.sendQueue.contains t = true)
    (hs : m.sending = n.sending) : n.Outstanding t := by
  rcases h with h | h
  · exact Or.inl (hq t h)
  · rw [hs] at h
    exact Or.inr h

theorem SpanInv.expire {n : Net} (h : n.SpanInv) (env : Env) : (n.expire env).SpanInv := by
  refine h.sender rfl rfl (le_refl _) h.sent h.sending (fun s b hb => h.queue s b ?_) ?_ fun t ht => Or.inl ?_
  · have hb' : (n.sender.shared.sendQueue.getExpired _ _ _).2.packet? s = some b := hb
    rwa [SendQueue.packet?_getExpired] at hb'
  · refine List.forall_mem_append.2 ⟨h.resending, ?_⟩
    intro r hr
    obtain ⟨⟨s, b⟩, he, rfl⟩ := List.mem_map.1 hr
    exact h.queue s b (SendQueue.mem_getExpired he)
  · exact ht.of_queue (n := n) (fun t => (SendQueue.contains_getExpired _ _ _ _ t).1) rfl

theorem SpanInv.resend {n : Net} (h : n.SpanInv) (env : Env) : (n.resend env).SpanInv := by
  rcases resend_cases n env with he | ⟨id, packet, rest, hr, he⟩ | he <;> rw [he]
  · exact h
  · have hresending := h.resending
    rw [hr] at hresending
    obtain ⟨hpacket, hrest⟩ := List.forall_mem_cons.1 hresending
    exact h.sender rfl rfl (le_refl _) (List.forall_mem_append.2 ⟨h.sent, List.forall_mem_singleton.2 hpacket⟩) h.sending
      h.queue hrest fun t ht => Or.inl ht
  · exact h.sender rfl rfl (le_refl _) h.sent h.sending h.queue (by simp) fun t ht => Or.inl ht

theorem SpanInv.ackArrive {n : Net} (h : n.SpanInv) (k : Nat) : (n.ackArrive k).SpanInv := by
  rcases ackArrive_cases n k with he | ⟨packet, ids, ranges, -, -, -, he⟩ <;> rw [he]
  · exact h
  · refine h.sender rfl rfl (le_refl _) h.sent h.sending (fun s b hb => h.queue s b ?_) h.resending fun t ht => Or.inl ?_
    · have hb' : (Conn.ackQueue n.sender.shared.sendQueue ranges).packet? s = some b := hb
      rw [(Conn.removes_ackQueue _ _).packet?] at hb'
      split_ifs at hb'
      exact hb'
    · exact ht.of_queue (n := n) (fun t hc => ((Conn.contains_ackQueue _ _ t).1 hc).1) rfl

theorem spanInv_step (n : Net) (op : Op) (hi : n.IdInv) (h : n.SpanInv) (hsmall : n.allocated < 2 ^ 23)
    (hop : n.InSpan op) : (n.step op).SpanInv := by
  have same : ∀ t, n.Outstanding t → n.Outstanding t ∨ n.allocated ≤ t := fun t ht => Or.inl ht
  cases op with
  | alloc payload split => exact h.alloc hi hsmall payload split
  | transmit i env => exact h.transmit i env
  | track i env => exact h.track i env
  | expire env => exact h.expire env
  | resend env => exact h.resend env
  | arrive k => exact h.arrive hsmall k hop
  | record i =>
    rcases record_cases n i with he | ⟨id, seq, -, he⟩ <;> simp only [step, he]
    · exact h
    · exact h.sender rfl rfl (le_refl _) h.sent h.sending h.queue h.resending same
  | takeAcks =>
    simp only [step, Net.takeAcks]
    split_ifs
    · exact h
    · exact h.sender rfl rfl (le_refl _) h.sent h.sending h.queue h.resending same
  | sendAcks env =>
    rcases sendAcks_cases n env with he | ⟨l, ids, rest, -, he | he⟩ <;> simp only [step, he]
    · exact h
    · exact h.sender rfl rfl (le_refl _) h.sent h.sending h.queue h.resending same
    · exact h.sender rfl rfl (le_refl _) h.sent h.sending h.queue h.resending same
  | ackArrive k => exact h.ackArrive k

/-! ## Runs -/

theorem allocated_step (n : Net) (op : Op) : n.allocated ≤ (n.step op).allocated := by
  cases op with
  | alloc payload split => exact Nat.le_succ _
  | transmit i env =>
    rcases transmit_cases n i env with he | ⟨x, -, -, he⟩ | he <;> simp only [step, he] <;> exact le_refl _
  | track i env => rcases track_cases n i env with he | ⟨x, -, -, he⟩ <;> simp only [step, he] <;> exact le_refl _
  | expire env => exact le_refl _
  | resend env =>
    rcases resend_cases n env with he | ⟨id, packet, rest, -, he⟩ | he <;> simp only [step, he] <;> exact le_refl _
  | arrive k =>
    rcases arrive_cases n k with he | ⟨packet, seq, data, -, -, ⟨-, he⟩ | ⟨id, -, -, he⟩⟩ <;> simp only [step, he] <;>
      exact le_refl _
  | record i => rcases record_cases n i with he | ⟨id, seq, -, he⟩ <;> simp only [step, he] <;> exact le_refl _
  | takeAcks =>
    simp only [step, Net.takeAcks]
    split_ifs <;> exact le_refl _
  | sendAcks env =>
    rcases sendAcks_cases n env with he | ⟨l, ids, rest, -, he | he⟩ <;> simp only [step, he] <;> exact le_refl _
  | ackArrive k =>
    rcases ackArrive_cases n k with he | ⟨packet, ids, ranges, -, -, -, he⟩ <;> simp only [step, he] <;> exact le_refl _

theorem allocated_run (n : Net) (ops : List Op) : n.allocated ≤ (n.run ops).allocated := by
  induction ops generalizing n with
  | nil => exact le_refl _
  | cons op ops ih => exact Nat.le_trans (allocated_step n op) (ih (n.step op))

theorem spanInv_run {n : Net} (hi : n.IdInv) (h : n.SpanInv) (ops : List Op) (hops : Machine.Steps step InSpan n ops)
    (hsmall : (n.run ops).allocated < 2 ^ 23) : (n.run ops).IdInv ∧ (n.run ops).SpanInv := by
  induction ops generalizing n with
  | nil => exact ⟨hi, h⟩
  | cons op ops ih =>
    have hn : n.allocated < 2 ^ 23 := Nat.lt_of_le_of_lt (allocated_run n (op :: ops)) hsmall
    exact ih (idInv_step n op hi) (spanInv_step n op hi h hn hops.1) hops.2 hsmall

/-- **Outstanding datagrams are accepted when they arrive.** In every run with fewer than 2^23 datagrams in which every
arrival that moves the window leaves no unaccepted outstanding number behind: a packet of a datagram that is still in
the send queue and was never accepted gets `Some(true)` when it arrives. -/
theorem outstanding_accepted (mtu mtu' : UInt16) (t t' : Nat) (ops : List Op) (k : Nat) (packet data : Bytes) (seq : U24)
    (hops : Machine.Steps step InSpan (init mtu mtu' t t') ops)
    (hsmall : ((init mtu mtu' t t').run ops).allocated < 2 ^ 23)
    (hp : ((init mtu mtu' t t').run ops).sender.sent[k]? = some packet)
    (hd : decodeDatagram (packet.take Conn.recvBufferSize) = .ok (seq, data))
    (hq : ((init mtu mtu' t t').run ops).sender.shared.sendQueue.contains seq.get = true)
    (hnew : seq.get ∉ ((init mtu mtu' t t').run ops).accepted) :
    (((init mtu mtu' t t').run ops).receiver.shared.recvWindow.markReceived seq.get).1 = some true := by
  obtain ⟨-, h⟩ := spanInv_run (idInv_init mtu mtu' t t') (spanInv_init mtu mtu' t t') ops hops hsmall
  generalize (init mtu mtu' t t').run ops = n at hsmall hp hq hnew h ⊢
  have hs : seq.get < 2 ^ 23 := Nat.lt_trans (h.decode_lt hp hd) hsmall
  have hbase := h.outstanding seq.get (Or.inl hq) hnew
  have hb : n.receiver.shared.recvWindow.baseSeq < 2 ^ 23 := Nat.lt_of_le_of_lt hbase hs
  rcases RecvWindow.markReceived_cases n.receiver.shared.recvWindow seq.get (by norm_num) with
    ⟨hto, -⟩ | ⟨-, -, hm⟩ | ⟨-, hoff, hbit, -⟩ | ⟨-, _, -, hm⟩
  · -- too old would put it before the base
    rw [RecvWindow.tooOld_eq _ _ hb hs, decide_eq_false (Nat.not_lt.2 hbase)] at hto
    cases hto
  · rw [hm]
  · -- a set bit stands for an accepted number
    have hmem := h.sound.bits _ hoff hbit
    have heq : n.window.window.baseSeq + n.receiver.shared.recvWindow.offset seq.get = seq.get := by
      rw [RecvWindow.offset_of_le _ hs hbase]
      exact Nat.add_sub_of_le hbase
    rw [heq] at hmem
    exact absurd hmem hnew
  · rw [hm]

/-- one send that nothing interrupts -/
def sendRound (payload : Bytes) : List Op :=
  [.alloc payload none, .transmit 0 Conn.quietEnv, .track 0 Conn.quietEnv]

/-- datagram 1 overtakes datagram 0, within the window -/
theorem outstanding_accepted_overtaken :
    (((init 1400 1400 0 0).run (sendRound [1] ++ sendRound [2] ++ [.arrive 1])).receiver.shared.recvWindow.markReceived
      (U24.new 0).get).1 = some true := by
  refine outstanding_accepted 1400 1400 0 0 _ 0 _ _ (U24.new 0) ?_ (by decide +kernel) rfl rfl (by decide +kernel)
    (by decide +kernel)
  refine ⟨trivial, trivial, trivial, trivial, trivial, trivial, ?_, trivial⟩
  intro packet seq data hp hd _ hoff
  have hsent : ((init 1400 1400 0 0).run (sendRound [1] ++ sendRound [2])).sender.sent[1]? =
      some (encodeDatagram (U24.new 1) [(Conn.buildFrame [2] (U24.new 1) (U24.new 1) none).encode]) := by decide +kernel
  have hp' : ((init 1400 1400 0 0).run (sendRound [1] ++ sendRound [2])).sender.sent[1]? = some packet := hp
  rw [hsent, Option.some.injEq] at hp'
  subst hp'
  rw [decodeDatagram_take _ _ (by decide), Outcome.ok.injEq, Prod.mk.injEq] at hd
  obtain ⟨rfl, -⟩ := hd
  have hnear : ¬ 2048 ≤ ((init 1400 1400 0 0).run
      (sendRound [1] ++ sendRound [2])).receiver.shared.recvWindow.offset (U24.new 1).get := by decide +kernel
  exact absurd hoff hnear

/-! ## A run that leaves the span -/

/-- `m` sends, one after another -/
def sends (m : Nat) : List Op := (List.replicate m (sendRound [1])).flatten

/-- the whole round, component by component -/
theorem run_sendRound (n : Net) (payload : Bytes) (h : n.sending = []) :
    ∃ holder, n.run (sendRound payload) = { n with
      sender := (Conn.sendReliableFrame Conn.quietEnv payload n.sender).2
      allocated := n.allocated + 1
      sentIds := n.sentIds ++ [n.allocated]
      holder := holder } := by
  obtain ⟨sender, receiver, sending, resending, arriving, flushing, allocated, sentIds, holder, accepted, pendingIds,
    ackIds, answered⟩ := n
  simp only at h
  subst h
  exact ⟨_, rfl⟩

/-- the state after `m` sends and no arrival -/
theorem run_sends (mtu mtu' : UInt16) (t t' m : Nat) :
    ∃ holder, (init mtu mtu' t t').run (sends m) = { init mtu mtu' t t' with
      sender := Conn.sendMany [1] m (.new mtu t false)
      allocated := m
      sentIds := List.range m
      holder := holder } := by
  induction m with
  | zero => exact ⟨∅, rfl⟩
  | succ m ih =>
    obtain ⟨holder, he⟩ := ih
    have hsplit : sends (m + 1) = sends m ++ sendRound [1] := by
      rw [sends, List.replicate_succ', List.flatten_append, List.flatten_singleton, sends]
    rw [run, hsplit, Machine.run_append, ← run, ← run, he]
    obtain ⟨holder', he'⟩ := run_sendRound { init mtu mtu' t t' with
      sender := Conn.sendMany [1] m (.new mtu t false)
      allocated := m
      sentIds := List.range m
      holder := holder } [1] rfl
    refine ⟨holder', he'.trans ?_⟩
    rw [List.range_succ]
    rfl

/-- a readable packet with a number the window accepts -/
theorem arrive_of_accepted {n : Net} {k id : Nat} {packet data : Bytes} {seq : U24}
    (hp : n.sender.sent[k]? = some packet) (hid : n.sentIds[k]? = some id)
    (hd : decodeDatagram (packet.take Conn.recvBufferSize) = .ok (seq, data))
    (ha : (n.receiver.shared.recvWindow.markReceived seq.get).1 = some true) :
    n.arrive k = { n with
      receiver := withWindow n.receiver (n.receiver.shared.recvWindow.markReceived seq.get).2
      accepted := n.accepted ++ [seq.get]
      arriving := n.arriving ++ [(id, seq)] } := by
  simp only [arrive, hp, hid, hd, Conn.markReceived, Conn.onShared, ha]
  rfl

/-- 2049 sends, and the last datagram arrives first -/
def lastFirst : List Op := sends 2049 ++ [.arrive 2048]

/-- **An outstanding datagram is refused.** Datagram 0 is in the send queue and was never accepted; datagram 2048 has
moved the base of the window to 1024, and datagram 0 is too old when it arrives. -/
theorem outstanding_refused :
    ((init 1400 1400 0 0).run lastFirst).allocated = 2049 ∧
    (∃ packet data, ((init 1400 1400 0 0).run lastFirst).sender.sent[0]? = some packet ∧
      decodeDatagram (packet.take Conn.recvBufferSize) = .ok (U24.new 0, data)) ∧
    ((init 1400 1400 0 0).run lastFirst).sender.shared.sendQueue.contains 0 = true ∧
    0 ∉ ((init 1400 1400 0 0).run lastFirst).accepted ∧
    (((init 1400 1400 0 0).run lastFirst).receiver.shared.recvWindow.markReceived 0).1 = none := by
  obtain ⟨holder, he⟩ := run_sends 1400 1400 0 0 2049
  have hmany := Conn.sentMany 1400 0 false [1] (m := 2049) (by norm_num)
  have hid : (List.range 2049)[2048]? = some 2048 := List.getElem?_range (by norm_num)
  generalize Conn.sendMany [1] 2049 (.new 1400 0 false) = sender at he hmany
  generalize List.range 2049 = ids at he hid
  obtain ⟨frames, hlast⟩ := hmany.sent 2048 (by norm_num)
  obtain ⟨frames', hfirst⟩ := hmany.sent 0 (by norm_num)
  have hrun : (init 1400 1400 0 0).run lastFirst = ((init 1400 1400 0 0).run (sends 2049)).arrive 2048 := by
    unfold run lastFirst
    exact Machine.run_snoc step _ _ _
  have hget : (U24.new 2048).get = 2048 := U24.get_new_of_lt (by norm_num)
  have hmark : (RecvWindow.new.markReceived (U24.new 2048).get).1 = some true := by decide +kernel
  rw [he] at hrun
  rw [arrive_of_accepted (n := { init 1400 1400 0 0 with
    sender := sender, allocated := 2049, sentIds := ids, holder := holder }) hlast hid
    (decodeDatagram_take _ _ (by decide)) hmark] at hrun
  rw [hrun]
  refine ⟨rfl, ⟨_, _, hfirst, decodeDatagram_take _ _ (by decide)⟩, (hmany.keys 0).2 (by norm_num), ?_, ?_⟩
  · show 0 ∉ [] ++ [(U24.new 2048).get]
    rw [hget]
    decide
  · simp only [init, withWindow, Conn.new, SharedState.new]
    decide +kernel

end Net

end RakNet
