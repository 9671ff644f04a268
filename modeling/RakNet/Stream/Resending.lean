/-
Retransmission by the tick task, over whole runs.

Every third round of the tick task sends again what has been in the send queue for more than nine round trips. So a datagram
that stays there is sent again within three rounds, as long as the task goes on and the socket takes its packets.

- `Awaits`: what can have become of an entry of the send queue: it has been sent again, is there as it was, or is gone.
- `toResend`: the steps of the tick task until its next retransmissions.
- `resent_within`: three rounds later an old entry has been sent again, or is gone.
-/
import RakNet.Connection.Retransmissions
import RakNet.Stream.WindDown

namespace RakNet

open Lib Lib.Wire

namespace SendQueue

/-- an insertion leaves every other entry alone, and its own too when the queue is full -/
theorem entries_insert (q : SendQueue) (now seq : Nat) (packet : Bytes) (s : Nat) :
    (q.insert now seq packet).2.packets[s]? = q.packets[s]? ∨ (s = seq ∧ (q.insert now seq packet).2.packet? s = some packet) := by
  unfold insert
  split_ifs
  · exact .inl rfl
  · by_cases hs : seq = s
    · refine .inr ⟨hs.symm, ?_⟩
      rw [packet?, NatMap.get?_insert, if_pos hs]
      rfl
    · refine .inl ?_
      rw [NatMap.get?_insert, if_neg hs]

end SendQueue

namespace Conn

open Action

/-- what has become of an entry since the socket had taken so many packets: sent again, as it was, or gone -/
structure Awaits (n seq : Nat) (entry : QueueEntry) (sent : List Bytes) (queue : SendQueue) : Prop where
  long : n ≤ sent.length
  entry : entry.packet ∈ sent.drop n ∨ queue.packets[seq]? = some entry ∨ queue.packet? seq ≠ some entry.packet

/-- what has become of an entry in a connection -/
def Awaiting (n seq : Nat) (entry : QueueEntry) (c : Conn) : Prop := Awaits n seq entry c.sent c.shared.sendQueue

variable {n seq : Nat} {entry : QueueEntry} {sent : List Bytes} {queue : SendQueue}

theorem Awaits.send (h : Awaits n seq entry sent queue) (packets : List Bytes) :
    Awaits n seq entry (sent ++ packets) queue := by
  refine ⟨h.long.trans (List.length_append ▸ Nat.le_add_right _ _), ?_⟩
  rw [List.drop_append_of_le_length h.long]
  rcases h.entry with hsent | hqueue
  · exact .inl (List.mem_append_left _ hsent)
  · exact .inr hqueue

/-- a datagram that is sent and queued -/
theorem Awaits.insert (h : Awaits n seq entry sent queue) (now s : Nat) (datagram : Bytes) :
    Awaits n seq entry (sent ++ [datagram]) (queue.insert now s datagram).2 := by
  have hlong := (h.send [datagram]).long
  refine ⟨hlong, ?_⟩
  rw [List.drop_append_of_le_length h.long]
  rcases h.entry with hsent | hqueue
  · exact .inl (List.mem_append_left _ hsent)
  · rcases queue.entries_insert now s datagram seq with hsame | ⟨-, hnew⟩
    · rw [SendQueue.packet?, hsame]
      exact .inr hqueue
    · by_cases hpacket : datagram = entry.packet
      · exact .inl (List.mem_append_right _ (List.mem_singleton.2 hpacket.symm))
      · refine .inr (.inr ?_)
        rw [hnew]
        exact fun heq => hpacket (Option.some.inj heq)

theorem Awaits.removes (h : Awaits n seq entry sent queue) {queue' : SendQueue} {covered : Nat → Bool}
    (hr : SendQueue.Removes queue queue' covered) : Awaits n seq entry sent queue' := by
  refine ⟨h.long, ?_⟩
  rcases h.entry with hsent | hsame | hgone
  · exact .inl hsent
  · cases hcovered : covered seq with
    | true =>
      refine .inr (.inr ?_)
      rw [hr.packet?, hcovered, if_pos rfl]
      exact (Option.some_ne_none _).symm
    | false =>
      refine .inr (.inl ?_)
      rw [hr.entries, hcovered, if_neg Bool.noConfusion, hsame]
  · refine .inr (.inr ?_)
    rw [hr.packet?]
    split_ifs
    · exact (Option.some_ne_none _).symm
    · exact hgone

/-! ## The accesses -/

theorem awaiting_send (env : Env) (packet : Bytes) : Keeps (Awaiting n seq entry) (socketSend env packet) := by
  intro c hc
  cases henv : env.sendError with
  | none =>
    rw [socketSend_ok henv]
    exact Awaits.send hc [packet]
  | some msg =>
    rw [socketSend_err henv]
    exact hc

theorem awaiting_sendFrame (env : Env) (payload : Bytes) (split : Option SplitInfo) :
    Keeps (Awaiting n seq entry) (sendFrame env payload split) := by
  intro c hc
  cases henv : env.sendError with
  | none =>
    rw [sendFrame_ok henv]
    exact Awaits.insert hc env.now c.shared.sendSeq.load.get (nextDatagram c.shared payload split)
  | some msg =>
    rw [sendFrame_err henv]
    exact hc

/-- the receive task and the calls take an entry out, or leave it alone -/
theorem accesses_awaiting (p : Profile) : CoreAccesses p (Awaiting n seq entry) where
  pong env _ := awaiting_send env _
  goodbye env := awaiting_send env _
  handleConnectionRequest := keeps_handleConnectionRequest fun env _ _ _ => awaiting_sendFrame env _ none
  state _ _ hc := hc
  notifier _ _ _ hc := hc
  markReceived _ := fun _ hc => hc
  recordAck _ := fun _ hc => hc
  handleAck ranges := fun c hc => Awaits.removes hc (removes_ackQueue c.shared.sendQueue ranges)

/-- is the entry older than the nine round trips of a retransmission -/
def Old (rttNanos now : Nat) (entry : QueueEntry) : Prop := 9 * rttNanos < now - entry.lastSendTime

instance (rttNanos now : Nat) (entry : QueueEntry) : Decidable (Old rttNanos now entry) := Nat.decLt _ _

/-- **The retransmissions**, with a socket that takes them all: an entry that is there as it was is sent again when it is old,
and left alone otherwise. -/
theorem awaiting_checkRetransmissions {envs : Nat → Env} (hsends : ∀ i, (envs i).sendError = none) {c : Conn}
    (h : Awaiting n seq entry c) :
    Awaiting n seq entry (checkRetransmissions envs c).2 ∧
      (Old c.shared.metrics.rttNanos (envs 0).now entry →
        entry.packet ∈ (checkRetransmissions envs c).2.sent.drop n ∨
          (checkRetransmissions envs c).2.shared.sendQueue.packet? seq ≠ some entry.packet) := by
  have hsent : (checkRetransmissions envs c).2.sent = c.sent ++ c.overduePackets (envs 0).now 9 := by
    rw [sent_checkRetransmissions, (taken_eq_iff _ _).2 fun i _ => hsends i]
  have hqueue : (checkRetransmissions envs c).2.shared.sendQueue =
      (c.shared.sendQueue.getExpired (envs 0).now (c.shared.metrics.rttNanos * 3) 3).2 :=
    (tick_sendAll envs _).comp (fun c => c.shared.sendQueue) _
  have hnine : c.shared.metrics.rttNanos * 3 * 3 = 9 * c.shared.metrics.rttNanos := by ring
  have hlong : n ≤ (checkRetransmissions envs c).2.sent.length := by
    rw [hsent]
    exact (Awaits.send h _).long
  rw [hsent] at hlong
  unfold Awaiting
  rw [hsent, hqueue, List.drop_append_of_le_length h.long, SendQueue.packet?_getExpired]
  rcases h.entry with hold | hsame | hgone
  · have hthere := List.mem_append_left (c.overduePackets (envs 0).now 9) hold
    refine ⟨⟨hlong, .inl ?_⟩, fun _ => .inl hthere⟩
    rwa [List.drop_append_of_le_length h.long]
  · by_cases hage : Old c.shared.metrics.rttNanos (envs 0).now entry
    · have hmem : (seq, entry) ∈ c.shared.sendQueue.overdue (envs 0).now (9 * c.shared.metrics.rttNanos) :=
        SendQueue.mem_overdue.2 ⟨hsame, hage⟩
      have hthere := List.mem_append_right (c.sent.drop n) (List.mem_map_of_mem (f := fun e => e.2.packet) hmem)
      refine ⟨⟨hlong, .inl ?_⟩, fun _ => .inl hthere⟩
      rw [List.drop_append_of_le_length h.long]
      exact hthere
    · refine ⟨⟨hlong, .inr (.inl ?_)⟩, fun hold => absurd hold hage⟩
      have hnot : SendQueue.isExpired (envs 0).now (c.shared.metrics.rttNanos * 3 * 3) entry = false := by
        rw [hnine]
        exact decide_eq_false hage
      rw [SendQueue.entries_getExpired, hsame, Option.map_some, hnot, if_neg Bool.noConfusion]
  · refine ⟨⟨hlong, .inr (.inr ?_)⟩, fun _ => .inr hgone⟩
    rwa [SendQueue.packet?_getExpired]

theorem grows_send (before : List Bytes) (env : Env) (packet : Bytes) :
    Keeps (fun c => before <+: c.sent) (socketSend env packet) := by
  intro c hc
  cases henv : env.sendError with
  | none =>
    rw [socketSend_ok henv]
    exact hc.trans (List.prefix_append _ _)
  | some msg =>
    rw [socketSend_err henv]
    exact hc

theorem grows_sendFrame (before : List Bytes) (env : Env) (payload : Bytes) (split : Option SplitInfo) :
    Keeps (fun c => before <+: c.sent) (sendFrame env payload split) :=
  keeps_sendFrame (fun _ _ => fun _ hc => hc)
    (fun env _ datagram _ => (grows_send before env datagram).bind fun _ => Keeps.bind (fun _ hc => hc) fun _ => fun _ hc => hc)
    (fun _ _ _ _ => fun _ hc => hc) env payload split

/-- nothing that was sent is taken back -/
theorem accesses_grows (p : Profile) (before : List Bytes) : AllAccesses p (fun c => before <+: c.sent) where
  pong env _ := grows_send before env _
  goodbye env := grows_send before env _
  handleConnectionRequest := keeps_handleConnectionRequest fun env _ _ _ => grows_sendFrame before env _ none
  sendFrame := grows_sendFrame before
  splitId := fun _ hc => hc
  state _ _ hc := hc
  notifier _ _ _ hc := hc
  flushAcks env := Keeps.bind (fun _ hc => hc) fun _ => Keeps.ite (keeps_pure _ _)
    ((grows_send before env _).bind fun _ => fun _ hc => hc)
  flushNacks env := Keeps.bind (fun _ hc => hc) fun _ => Keeps.ite (keeps_pure _ _)
    ((grows_send before env _).bind fun _ => fun _ hc => hc)
  checkRetransmissions envs := Keeps.bind (fun _ hc => hc) fun packets => by
    intro c hc
    rw [sent_sendAll]
    exact hc.trans (List.prefix_append _ _)
  cleanupExpired _ := fun _ hc => hc
  sendKeepalivePing env := Keeps.bind (fun _ hc => hc) fun _ => (grows_send before env _).bind fun _ => fun _ hc => hc
  handleConnectedPong := keeps_handleConnectedPong (fun _ _ hc => hc) fun _ _ hc => hc
  markReceived _ := fun _ hc => hc
  recordAck _ := fun _ hc => hc
  handleAck _ := fun _ hc => hc
  advanceChannel frame := (preserves_advanceChannel frame).keeps fun c => before <+: c.sent
  handleGamePacket env frame := (preserves_handleGamePacket p env frame).keeps fun c => before <+: c.sent

end Conn

/-- the steps from a place of the tick task to the end of its next retransmissions, which are those of every third round -/
def TickPlace.toResend (counter : Nat) : TickPlace → Nat
  | .timeout => 4 + 7 * ((3 - counter % 3) % 3)
  | .flushAcks => 3 + 7 * ((3 - counter % 3) % 3)
  | .flushNacks => 2 + 7 * ((3 - counter % 3) % 3)
  | .retransmit => 1 + 7 * ((3 - counter % 3) % 3)
  | .cleanup => 7 + 7 * (2 - counter % 3)
  | .keepalive => 6 + 7 * (2 - counter % 3)
  | .waiting => 5 + 7 * (2 - counter % 3)
  | .ended => 0

namespace Stream

open Conn Action

variable {n seq : Nat} {entry : QueueEntry}

/-- the packets the socket has taken only become more -/
theorem sent_next (p : Profile) (s : Stream) (op : Op) : s.conn.sent <+: (next p s op).conn.sent := by
  rcases next_cases (accesses_grows p s.conn.sent) (List.prefix_refl _) op with ⟨-, hnext⟩ | ⟨env, len, c, -, hc, hnext⟩
  · exact hnext
  · rw [hnext]
    exact hc

/-- what is known of an entry after the packets of the tick task are taken -/
theorem awaiting_tickStep (p : Profile) {envs : Nat → Env} (hsends : ∀ i, (envs i).sendError = none) {s : Stream}
    (h : Awaiting n seq entry s.conn) : Awaiting n seq entry (s.tickStep p envs).conn := by
  have hflush : ∀ packet len, Keeps (Awaiting n seq entry) (do socketSend (envs 0) packet; recordSend (envs 0) len : Act Unit) :=
    fun packet len => (awaiting_send (envs 0) packet).bind fun _ => fun _ hc => hc
  unfold tickStep
  cases s.ticking with
  | waiting =>
    dsimp only
    split_ifs
    · exact h
    · cases p.add 32 s.pingCounter 1 <;> exact h
  | timeout =>
    dsimp only
    split_ifs <;> exact h
  | ended => exact h
  | flushAcks => exact (Keeps.bind (fun _ hc => hc) fun _ => Keeps.ite (keeps_pure _ _) (hflush _ _)) _ h
  | flushNacks => exact (Keeps.bind (fun _ hc => hc) fun _ => Keeps.ite (keeps_pure _ _) (hflush _ _)) _ h
  | retransmit =>
    show Awaiting n seq entry ((if s.pingCounter % 3 = 0 then checkRetransmissions envs else pure ()) s.conn).2
    split_ifs
    · exact (awaiting_checkRetransmissions hsends h).1
    · exact h
  | cleanup => exact (Keeps.ite (fun _ hc => hc) (keeps_pure _ _)) _ h
  | keepalive =>
    show Awaiting n seq entry (work envs s.pingCounter .keepalive s.conn).2
    unfold work
    rw [get_bind]
    split_ifs
    · exact (Keeps.bind (fun _ hc => hc) fun _ => hflush _ _) _ h
    · exact h

/-! ## Three rounds -/

/-- the entry stays in the queue, and a step of the tick task goes on, with a socket that takes its packets and a clock past
the nine round trips of the entry -/
structure Unanswered (p : Profile) (seq : Nat) (entry : QueueEntry) (s : Stream) (op : Op) : Prop where
  queued : (next p s op).conn.shared.sendQueue.packet? seq = some entry.packet
  goesOn : op.ticks = true → (next p s op).ticking ≠ .ended
  sends : ∀ envs, op = .tickTask envs → ∀ i, (envs i).sendError = none
  old : ∀ envs, op = .tickTask envs → Old s.conn.shared.metrics.rttNanos (envs 0).now entry

/-- a stream with an entry to send again and its tick task at work; the counter of the rounds is a `u32` -/
structure Waiting (n seq : Nat) (entry : QueueEntry) (s : Stream) : Prop where
  awaiting : Awaiting n seq entry s.conn
  running : s.ticking ≠ .ended
  counter : s.pingCounter < 2 ^ 32

/-- the steps of the tick task until the packet is sent again -/
def toResend (n : Nat) (packet : Bytes) (s : Stream) : Nat :=
  if packet ∈ s.conn.sent.drop n then 0 else s.ticking.toResend s.pingCounter

/-- a step of another task -/
theorem awaiting_next (p : Profile) {s : Stream} (h : Awaiting n seq entry s.conn) {op : Op}
    (hop : ∀ envs, op ≠ .tickTask envs) : Awaiting n seq entry (next p s op).conn := by
  have haccesses : CoreAccesses p (Awaiting n seq entry) := accesses_awaiting p
  have hpong : ∀ env packet, Keeps (Awaiting n seq entry) (handleConnectedPong p env packet) :=
    keeps_handleConnectedPong (fun _ _ hc => hc) fun _ _ hc => hc
  have hcases := next_cases_of haccesses h op
    (fun env _ => sendStep_keeps awaiting_sendFrame (fun _ hc => hc) env h) (fun envs he => absurd he (hop envs))
    (fun env _ _ _ => haccesses.beginPacket env h fun _ => hpong env _ s.conn h)
    fun env _ rest _ _ => haccesses.frameStep
      (fun frame => (preserves_advanceChannel frame).keeps (Awaiting n seq entry))
      (fun env frame => (preserves_handleGamePacket p env frame).keeps (Awaiting n seq entry)) env h
      fun _ _ frame _ _ _ _ => hpong env frame.payload s.conn h
  rcases hcases with ⟨-, hnext⟩ | ⟨env, len, c, -, hc, hnext⟩
  · exact hnext
  · rw [hnext]
    exact hc

/-- the next round: the counter goes on, or starts again after 2^32 rounds -/
theorem counter_next {p : Profile} {counter k : Nat} (h : p.add 32 counter 1 = .ok k) (hcounter : counter < 2 ^ 32) :
    k < 2 ^ 32 ∧ (k = counter + 1 ∨ (counter % 3 = 0 ∧ k = 0)) := by
  unfold Profile.add at h
  split_ifs at h with hroom
  · cases h
    exact ⟨hroom, .inl rfl⟩
  · cases p with
    | dev => cases h
    | release =>
      have hlast : counter + 1 = 2 ^ 32 := by omega
      cases h
      rw [hlast, Nat.mod_self]
      exact ⟨by decide, .inr ⟨by omega, rfl⟩⟩

/-- **A step of the tick task** that goes on is one less to the retransmissions, or sends the packet. -/
theorem tickStep_toResend {p : Profile} {envs : Nat → Env} {s : Stream} (h : Waiting n seq entry s)
    (hop : Unanswered p seq entry s (.tickTask envs)) :
    (s.tickStep p envs).pingCounter < 2 ^ 32 ∧
      (entry.packet ∈ (s.tickStep p envs).conn.sent.drop n ∨
        (s.tickStep p envs).ticking.toResend (s.tickStep p envs).pingCounter ≤ s.ticking.toResend s.pingCounter - 1) := by
  have hgoes : (s.tickStep p envs).ticking ≠ .ended := hop.goesOn rfl
  have hqueued : (s.tickStep p envs).conn.shared.sendQueue.packet? seq = some entry.packet := hop.queued
  have hcounter := h.counter
  unfold tickStep at hgoes hqueued ⊢
  cases hs : s.ticking with
  | waiting =>
    rw [hs] at hgoes
    dsimp only at hgoes ⊢
    split_ifs at hgoes ⊢ with hclosed
    · exact absurd rfl hgoes
    · cases hadd : p.add 32 s.pingCounter 1 with
      | ok k =>
        obtain ⟨hbound, hk⟩ := counter_next hadd hcounter
        refine ⟨hbound, .inr ?_⟩
        dsimp only [TickPlace.toResend]
        rcases hk with rfl | ⟨hzero, rfl⟩ <;> omega
      | err e | panic =>
        rw [hadd] at hgoes
        exact absurd rfl hgoes
  | timeout =>
    rw [hs] at hgoes
    dsimp only at hgoes ⊢
    split_ifs at hgoes ⊢ with htimeout
    · exact absurd rfl hgoes
    · refine ⟨hcounter, .inr ?_⟩
      dsimp only [TickPlace.toResend]
      omega
  | ended =>
    rw [hs] at hgoes
    exact absurd hs hgoes
  | retransmit =>
    rw [hs] at hqueued
    refine ⟨hcounter, ?_⟩
    by_cases hdue : s.pingCounter % 3 = 0
    · have hwork : work envs s.pingCounter .retransmit = checkRetransmissions envs := if_pos hdue
      have hchecked := (awaiting_checkRetransmissions (hop.sends envs rfl) h.awaiting).2 (hop.old envs rfl)
      rw [← hwork] at hchecked
      exact .inl (hchecked.resolve_right fun hgone => hgone hqueued)
    · refine .inr ?_
      dsimp only [TickPlace.toResend, onConn]
      omega
  | flushAcks | flushNacks | cleanup | keepalive =>
    refine ⟨hcounter, .inr ?_⟩
    dsimp only [TickPlace.toResend, onConn]
    omega

theorem Waiting.next {p : Profile} {s : Stream} (h : Waiting n seq entry s) {op : Op} (hop : Unanswered p seq entry s op) :
    Waiting n seq entry (next p s op) ∧ (next p s op).toResend n entry.packet ≤ s.toResend n entry.packet ∧
      (op.ticks = true → (next p s op).toResend n entry.packet ≤ s.toResend n entry.packet - 1) := by
  have hstays : entry.packet ∈ s.conn.sent.drop n → (Stream.next p s op).toResend n entry.packet = 0 := by
    intro hsent
    obtain ⟨more, hmore⟩ := sent_next p s op
    refine if_pos ?_
    rw [← hmore, List.drop_append_of_le_length h.awaiting.long]
    exact List.mem_append_left _ hsent
  by_cases htick : ∃ envs, op = .tickTask envs
  · obtain ⟨envs, rfl⟩ := htick
    have hawaiting := awaiting_tickStep p (hop.sends envs rfl) h.awaiting
    obtain ⟨hcounter, hstep⟩ := tickStep_toResend h hop
    have hless : (Stream.next p s (.tickTask envs)).toResend n entry.packet ≤ s.toResend n entry.packet - 1 := by
      by_cases hsent : entry.packet ∈ s.conn.sent.drop n
      · rw [hstays hsent]
        exact Nat.zero_le _
      · have hbefore : s.toResend n entry.packet = s.ticking.toResend s.pingCounter := if_neg hsent
        rw [hbefore]
        rcases hstep with hnow | hle
        · have hzero : (Stream.next p s (.tickTask envs)).toResend n entry.packet = 0 := if_pos hnow
          rw [hzero]
          exact Nat.zero_le _
        · unfold toResend
          split_ifs
          · exact Nat.zero_le _
          · exact hle
    exact ⟨⟨hawaiting, hop.goesOn rfl, hcounter⟩, hless.trans (Nat.sub_le _ _), fun _ => hless⟩
  · have hother : ∀ envs, op ≠ .tickTask envs := fun envs he => htick ⟨envs, he⟩
    obtain ⟨hticking, hcounter⟩ := ticking_next_of_ne p s hother
    have hno : op.ticks = false := by
      cases op with
      | tickTask envs => exact absurd rfl (hother envs)
      | _ => rfl
    refine ⟨⟨awaiting_next p h.awaiting hother, by rw [hticking]; exact h.running, by rw [hcounter]; exact h.counter⟩, ?_,
      fun hticks => absurd (hno.symm.trans hticks) Bool.noConfusion⟩
    by_cases hsent : entry.packet ∈ s.conn.sent.drop n
    · rw [hstays hsent]
      exact Nat.zero_le _
    · have hbefore : s.toResend n entry.packet = s.ticking.toResend s.pingCounter := if_neg hsent
      rw [hbefore, toResend, hticking, hcounter]
      split_ifs
      · exact Nat.zero_le _
      · exact Nat.le_refl _

/-- the counter of the rounds of a fresh stream is always a `u32` -/
theorem counter_run (p : Profile) (mtu : UInt16) (nowMicros : Nat) (ready : Bool) (ops : List Op) :
    (run p (new mtu nowMicros ready) ops).pingCounter < 2 ^ 32 := by
  have hstep : ∀ (s : Stream) op, s.pingCounter < 2 ^ 32 → (next p s op).pingCounter < 2 ^ 32 := by
    intro s op hs
    by_cases htick : ∃ envs, op = .tickTask envs
    · obtain ⟨envs, rfl⟩ := htick
      show (s.tickStep p envs).pingCounter < 2 ^ 32
      unfold tickStep
      cases s.ticking with
      | waiting =>
        dsimp only
        split_ifs
        · exact hs
        · cases hadd : p.add 32 s.pingCounter 1 with
          | ok k => exact (counter_next hadd hs).1
          | err e | panic => exact hs
      | timeout =>
        dsimp only
        split_ifs <;> exact hs
      | _ => exact hs
    · rw [(ticking_next_of_ne p s fun envs he => htick ⟨envs, he⟩).2]
      exact hs
  exact Machine.run_inv hstep (show 0 < 2 ^ 32 by decide) ops

/-- **What is not acknowledged is sent again.** However a stream was used before, with its tick task still at work and an entry
in its send queue: if from then on the entry's packet stays in the queue, the tick task goes on with a socket that takes its
packets, and nine round trips have passed since the entry was last sent, then it is sent again within 21 steps of the tick
task, whatever the other tasks and the application do in between. -/
theorem resent_within (p : Profile) (mtu : UInt16) (nowMicros : Nat) (ready : Bool) (before after : List Op) (seq : Nat)
    (entry : QueueEntry)
    (hrunning : (run p (new mtu nowMicros ready) before).ticking ≠ .ended)
    (hentry : (run p (new mtu nowMicros ready) before).conn.shared.sendQueue.packets[seq]? = some entry)
    (hafter : Machine.Steps (next p) (Unanswered p seq entry) (run p (new mtu nowMicros ready) before) after)
    (hticks : 21 ≤ after.countP Op.ticks) :
    entry.packet ∈ (run p (new mtu nowMicros ready) (before ++ after)).conn.sent.drop
      (run p (new mtu nowMicros ready) before).conn.sent.length := by
  have hstart : Waiting (run p (new mtu nowMicros ready) before).conn.sent.length seq entry
      (run p (new mtu nowMicros ready) before) :=
    ⟨⟨Nat.le_refl _, .inr (.inl hentry)⟩, hrunning, counter_run p mtu nowMicros ready before⟩
  have hwhole : run p (new mtu nowMicros ready) (before ++ after) =
      Machine.run (next p) (run p (new mtu nowMicros ready) before) after := Machine.run_append _ _ _ _
  have hstep : ∀ s op, Waiting (run p (new mtu nowMicros ready) before).conn.sent.length seq entry s →
      Unanswered p seq entry s op → Waiting (run p (new mtu nowMicros ready) before).conn.sent.length seq entry (next p s op) :=
    fun _ _ hs hop => (hs.next hop).1
  have hend := Machine.run_inv_of_steps hstep hstart hafter
  have hleft : (Machine.run (next p) (run p (new mtu nowMicros ready) before) after).toResend
        (run p (new mtu nowMicros ready) before).conn.sent.length entry.packet ≤
      (run p (new mtu nowMicros ready) before).toResend
        (run p (new mtu nowMicros ready) before).conn.sent.length entry.packet - after.countP Op.ticks :=
    Machine.run_le_sub_of_steps hstep (fun _ _ hs hop => (hs.next hop).2.1) (fun _ _ hs hop => (hs.next hop).2.2) hstart hafter
  have hmax : (run p (new mtu nowMicros ready) before).toResend
      (run p (new mtu nowMicros ready) before).conn.sent.length entry.packet ≤ 21 := by
    unfold toResend
    split_ifs
    · exact Nat.zero_le _
    · cases (run p (new mtu nowMicros ready) before).ticking <;> dsimp only [TickPlace.toResend] <;> omega
  rw [hwhole]
  by_contra hnot
  rw [toResend, if_neg hnot] at hleft
  have hplace := hend.running
  cases hticking : (Machine.run (next p) (run p (new mtu nowMicros ready) before) after).ticking with
  | ended => exact hplace hticking
  | _ =>
    rw [hticking] at hleft
    dsimp only [TickPlace.toResend] at hleft
    omega

/-- the tick task at work alone -/
theorem unanswered_replicate {p : Profile} {seq : Nat} {entry : QueueEntry} {envs : Nat → Env} {s : Stream} {k : Nat}
    (hsends : ∀ i, (envs i).sendError = none)
    (hstays : ∀ i < k, (run p s (List.replicate (i + 1) (.tickTask envs))).conn.shared.sendQueue.packet? seq =
        some entry.packet ∧
      (run p s (List.replicate (i + 1) (.tickTask envs))).ticking ≠ .ended ∧
      Old (run p s (List.replicate i (.tickTask envs))).conn.shared.metrics.rttNanos (envs 0).now entry) :
    Machine.Steps (next p) (Unanswered p seq entry) s (List.replicate k (.tickTask envs)) := by
  refine Machine.steps_replicate fun i hi => ?_
  obtain ⟨hqueued, hgoes, hold⟩ := hstays i hi
  have hone : run p s (List.replicate (i + 1) (.tickTask envs)) =
      next p (run p s (List.replicate i (.tickTask envs))) (.tickTask envs) := by
    rw [List.replicate_succ']
    exact Machine.run_snoc _ _ _ _
  rw [hone] at hqueued hgoes
  refine ⟨hqueued, fun _ => hgoes, ?_, ?_⟩
  · intro others hothers
    cases hothers
    exact hsends
  · intro others hothers
    cases hothers
    exact hold

/-- a message that is sent and never acknowledged -/
def oneSent : List Op := login ++ [.send [1, 2, 3], .sendTask quietEnv]

/-- its datagram -/
def unanswered : QueueEntry := ⟨encodeDatagram (.new 0) [(buildFrame [1, 2, 3] (.new 0) (.new 0) none).encode], 0, 0⟩

/-- the peer is heard, but ten seconds later the message is still in the queue -/
def later : Env := { quietEnv with now := 10000000000 }

theorem resent_within_login :
    unanswered.packet ∈ (run .dev (new 1492 0 true) (oneSent ++ List.replicate 21 (.tickTask fun _ => later))).conn.sent.drop
      (run .dev (new 1492 0 true) oneSent).conn.sent.length := by
  have hrunning : (run .dev (new 1492 0 true) oneSent).ticking ≠ .ended := by decide +kernel
  have hentry : (run .dev (new 1492 0 true) oneSent).conn.shared.sendQueue.packets[0]? = some unanswered := by
    decide +kernel
  have hstays : ∀ i < 21, (run .dev (run .dev (new 1492 0 true) oneSent)
        (List.replicate (i + 1) (.tickTask fun _ => later))).conn.shared.sendQueue.packet? 0 = some unanswered.packet ∧
      (run .dev (run .dev (new 1492 0 true) oneSent) (List.replicate (i + 1) (.tickTask fun _ => later))).ticking ≠ .ended ∧
      Old (run .dev (run .dev (new 1492 0 true) oneSent)
        (List.replicate i (.tickTask fun _ => later))).conn.shared.metrics.rttNanos later.now unanswered := by
    decide +kernel
  have hticks : 21 ≤ (List.replicate 21 (Op.tickTask fun _ => later)).countP Op.ticks := by decide
  exact resent_within .dev 1492 0 true oneSent _ 0 unanswered hrunning hentry
    (unanswered_replicate (fun _ => rfl) hstays) hticks

end Stream

end RakNet
