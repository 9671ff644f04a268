/-
What a stream holds on to.

- `load_le_accepted`: the bytes handed to the application, those waiting in the channels and the fragment queue, and those
  of the packet at hand are never more than the bytes taken from the socket.
- `within_limits`: the send queue, the channels and the fragment queue stay within their limits; no NACK is ever pending or
  sent.
-/
import RakNet.Reliability.Volume
import RakNet.Stream.Traffic

namespace RakNet

open Lib Lib.Wire

namespace Conn

open Action

namespace Held

/-! ## Volume -/

/-- the bytes delivered and held -/
def volume (h : Held) : Nat := bytesOf h.appData + ∑ i : Fin 16, (h.channels.get i).volume + h.fragments.volume

theorem get_replicate (c : OrderedChannel) (i : Fin 16) : (Vector.replicate 16 c).get i = c :=
  Vector.getElem_replicate i.isLt

/-- one channel replaced -/
theorem sum_set (channels : Vector OrderedChannel 16) (k : Nat) (hk : k < 16) (c : OrderedChannel) :
    ∑ i : Fin 16, ((channels.set k c hk).get i).volume + channels[k].volume =
      ∑ i : Fin 16, (channels.get i).volume + c.volume := by
  have hsplit := fun v : Vector OrderedChannel 16 =>
    (Finset.add_sum_erase Finset.univ (fun i : Fin 16 => (v.get i).volume) (Finset.mem_univ ⟨k, hk⟩)).symm
  have hrest : ∑ i ∈ Finset.univ.erase (⟨k, hk⟩ : Fin 16), ((channels.set k c hk).get i).volume =
      ∑ i ∈ Finset.univ.erase (⟨k, hk⟩ : Fin 16), (channels.get i).volume := by
    apply Finset.sum_congr rfl
    intro i hi
    have hne : k ≠ i := fun he => Finset.ne_of_mem_erase hi (Fin.ext he.symm)
    rw [get_set_ne _ _ hk hne]
  rw [hsplit (channels.set k c hk), hsplit channels, hrest, get_set_self channels c hk rfl]
  have hget : channels.get ⟨k, hk⟩ = channels[k] := rfl
  rw [hget]
  omega

theorem volume_ordered (h : Held) (f : Frame) : (h.ordered f).volume ≤ h.volume + f.payload.length := by
  unfold ordered
  split_ifs with h16
  · have hsum := sum_set h.channels f.orderChannel.toNat h16
      (h.channels[f.orderChannel.toNat].insert (orderIndexOf f) f.payload).2
    have hinsert := h.channels[f.orderChannel.toNat].volume_insert (orderIndexOf f) f.payload
    unfold volume
    dsimp only
    rw [bytesOf_append]
    omega
  · exact Nat.le_add_right _ _

theorem volume_advanced (h : Held) (f : Frame) : (h.advanced f).volume ≤ h.volume + f.payload.length := by
  unfold advanced
  cases f.orderIndex with
  | none => split_ifs <;> exact Nat.le_add_right _ _
  | some i =>
    dsimp only
    split_ifs with hordered h16
    · have hsum := sum_set h.channels f.orderChannel.toNat h16
        (h.channels[f.orderChannel.toNat].insert i.get f.payload).2
      have hinsert := h.channels[f.orderChannel.toNat].volume_insert i.get f.payload
      unfold volume
      dsimp only
      omega
    all_goals exact Nat.le_add_right _ _

theorem volume_fragment (p : Profile) (now : Nat) (h : Held) (f : Frame) (info : SplitInfo) :
    (h.fragment p now f info).volume ≤ h.volume + f.payload.length := by
  have hinsert := h.fragments.volume_insert now info.id.toNat info.index.toNat info.count.toNat f.payload
  unfold fragment
  split_ifs
  · unfold volume
    dsimp only
    rw [bytesOf_append]
    omega
  · exact Nat.le_add_right _ _

theorem volume_game (p : Profile) (now : Nat) (h : Held) (f : Frame) : (h.game p now f).volume ≤ h.volume + f.payload.length := by
  unfold game
  split_ifs
  · exact h.volume_ordered f
  · cases f.split with
    | some info => exact h.volume_fragment p now f info
    | none =>
      unfold volume
      dsimp only
      rw [bytesOf_append, bytesOf_cons, bytesOf_nil]
      omega

/-- **A frame adds its payload at most.** -/
theorem volume_after (p : Profile) (now : Nat) (s : ConnectionState) (h : Held) (f : Frame) :
    (h.after p now s f).volume ≤ h.volume + f.payload.length := by
  unfold after
  cases kindIn s f with
  | request | incoming => exact h.volume_advanced f
  | game => exact h.volume_game p now f
  | empty | ping | pong | disconnect | echo => exact Nat.le_add_right _ _

/-! ## Limits -/

/-- the channels and the fragment queue are within their limits -/
structure Within (h : Held) : Prop where
  queueSize : ∀ i, (h.channels.get i).maxQueueSize = 256
  channels : ∀ i, (h.channels.get i).queue.size ≤ 256
  maxConcurrent : h.fragments.maxConcurrent = 512
  fragments : h.fragments.splits.size ≤ 512

theorem Within.setChannel {h : Held} (hw : h.Within) (k : Nat) (hk : k < 16) (appData : List Bytes) (i : Nat) (data : Bytes) :
    Within { h with appData := appData, channels := h.channels.set k (h.channels[k].insert i data).2 } := by
  have hsize : h.channels[k].maxQueueSize = 256 := hw.queueSize ⟨k, hk⟩
  have hle : h.channels[k].queue.size ≤ 256 := hw.channels ⟨k, hk⟩
  refine ⟨?_, ?_, hw.maxConcurrent, hw.fragments⟩
  · intro j
    by_cases hj : k = j
    · rw [get_set_self _ _ hk hj, OrderedChannel.maxQueueSize_insert, hsize]
    · rw [get_set_ne _ _ hk hj]
      exact hw.queueSize j
  · intro j
    by_cases hj : k = j
    · rw [get_set_self _ _ hk hj, ← hsize]
      exact OrderedChannel.size_insert_le (by rw [hsize]; exact hle) i data
    · rw [get_set_ne _ _ hk hj]
      exact hw.channels j

theorem Within.advanced {h : Held} (hw : h.Within) (f : Frame) : (h.advanced f).Within := by
  unfold Held.advanced
  cases f.orderIndex with
  | none => split_ifs <;> exact hw
  | some i =>
    dsimp only
    split_ifs with hordered h16
    · exact hw.setChannel f.orderChannel.toNat h16 h.appData i.get f.payload
    all_goals exact hw

theorem Within.game {h : Held} (hw : h.Within) (p : Profile) (now : Nat) (f : Frame) : (h.game p now f).Within := by
  unfold Held.game
  split_ifs
  · unfold ordered
    split_ifs with h16
    · exact hw.setChannel f.orderChannel.toNat h16 _ (orderIndexOf f) f.payload
    · exact hw
  · cases f.split with
    | none => exact ⟨hw.queueSize, hw.channels, hw.maxConcurrent, hw.fragments⟩
    | some info =>
      dsimp only
      unfold fragment
      have hle : h.fragments.splits.size ≤ h.fragments.maxConcurrent := by
        rw [hw.maxConcurrent]
        exact hw.fragments
      split_ifs
      · refine ⟨hw.queueSize, hw.channels, ?_, ?_⟩
        · exact (FragmentQueue.maxConcurrent_insert _ _ _ _ _ _).trans hw.maxConcurrent
        · rw [← hw.maxConcurrent]
          exact FragmentQueue.size_insert_le hle _ _ _ _ _
      · exact hw

end Held

/-! ## The accesses and what is held -/

theorem preserves_held_send (env : Env) (packet : Bytes) : Preserves heldView (socketSend env packet) :=
  preserves_heldView (preserves_socketSend env packet)

theorem held_sendFrame (I : Held → Prop) (env : Env) (payload : Bytes) (split : Option SplitInfo) :
    Keeps (fun c => I (heldView c)) (sendFrame env payload split) :=
  keeps_sendFrame (fun _ _ => fun _ hc => hc)
    (fun env _ datagram _ => ((preserves_held_send env datagram).bind fun _ =>
      Preserves.bind (fun _ => rfl) fun _ => fun _ => rfl).keeps I)
    (fun _ _ _ _ => fun _ hc => hc) env payload split

/-- frames apart, only the clean-up of the fragments changes what is held -/
theorem accesses_held (p : Profile) {I : Held → Prop}
    (hclean : ∀ h now, I h → I { h with fragments := (h.fragments.cleanupExpired now).2 }) :
    Accesses p (fun c => I (heldView c)) where
  pong env _ := (preserves_held_send env _).keeps I
  goodbye env := (preserves_held_send env _).keeps I
  handleConnectionRequest := keeps_handleConnectionRequest fun env _ _ _ => held_sendFrame I env _ none
  state _ _ hc := hc
  notifier _ _ _ hc := hc
  flushAcks env := (Preserves.bind (fun _ => rfl) fun _ => preserves_heldView (preserves_flushTail env _ _)).keeps I
  flushNacks env := (Preserves.bind (fun _ => rfl) fun _ => preserves_heldView (preserves_flushTail env _ _)).keeps I
  checkRetransmissions envs :=
    (Preserves.bind (fun _ => rfl) fun packets => preserves_heldView (preserves_sendAll envs packets)).keeps I
  cleanupExpired env := fun c hc => hclean (heldView c) env.now hc
  markReceived _ := fun _ hc => hc
  recordAck _ := fun _ hc => hc
  handleAck _ := fun _ hc => hc

theorem held_sendKeepalivePing (I : Held → Prop) (env : Env) : Keeps (fun c => I (heldView c)) (sendKeepalivePing env) :=
  (Preserves.bind (fun _ => rfl) fun _ => (preserves_held_send env _).bind fun _ => fun _ => rfl).keeps I

theorem held_handleConnectedPong (p : Profile) (I : Held → Prop) (env : Env) (packet : Bytes) :
    Keeps (fun c => I (heldView c)) (handleConnectedPong p env packet) :=
  keeps_handleConnectedPong (fun _ _ hc => hc) (fun _ _ hc => hc) env packet

/-- what is held stays within its limits -/
theorem accesses_within (p : Profile) : AllAccesses p (fun c => (heldView c).Within) where
  toAccesses := accesses_held p fun h now hw => by
    refine ⟨hw.queueSize, hw.channels, hw.maxConcurrent, ?_⟩
    exact (h.fragments.size_cleanupExpired_le now).trans hw.fragments
  sendFrame := held_sendFrame Held.Within
  splitId := fun _ hc => hc
  sendKeepalivePing := held_sendKeepalivePing Held.Within
  handleConnectedPong := held_handleConnectedPong p Held.Within
  advanceChannel frame := by
    intro c hc
    rw [heldView_advanceChannel]
    exact hc.advanced frame
  handleGamePacket env frame := by
    intro c hc
    rw [heldView_handleGamePacket]
    exact hc.game p env.now frame

/-! ## The send side -/

/-- the send queue is within its limit and holds datagrams; no NACK is pending or was sent -/
structure Unnacked (queue : SendQueue) (nacks : AckRangeList) (sent : List Bytes) : Prop where
  maxSize : queue.maxSize = 2048
  len : queue.len ≤ 2048
  queued : queue.OnlyDatagrams
  nacks : nacks = .new
  sent : ∀ packet ∈ sent, packet.head? ≠ some idNack

def SendSide (c : Conn) : Prop := Unnacked c.shared.sendQueue c.shared.pendingNacks c.sent

variable {queue : SendQueue} {nacks : AckRangeList} {sent : List Bytes}

theorem Unnacked.send (h : Unnacked queue nacks sent) {packet : Bytes} (hpacket : packet.head? ≠ some idNack) :
    Unnacked queue nacks (sent ++ [packet]) := by
  refine ⟨h.maxSize, h.len, h.queued, h.nacks, ?_⟩
  intro b hb
  rcases List.mem_append.1 hb with hold | hnew
  · exact h.sent b hold
  · rw [List.mem_singleton.1 hnew]
    exact hpacket

theorem sendSide_send (env : Env) {packet : Bytes} (hpacket : packet.head? ≠ some idNack) :
    Keeps SendSide (socketSend env packet) := by
  intro c hc
  cases henv : env.sendError with
  | none =>
    rw [socketSend_ok henv]
    exact Unnacked.send hc hpacket
  | some msg =>
    rw [socketSend_err henv]
    exact hc

theorem not_nack {packet : Bytes} {id : UInt8} (h : packet.head? = some id) (hid : id ≠ idNack) :
    packet.head? ≠ some idNack := by
  rw [h]
  simpa using hid

theorem sendSide_sendAll (envs : Nat → Env) {packets : List Bytes} (hpackets : ∀ b ∈ packets, b.head? ≠ some idNack) :
    Keeps SendSide (sendAll envs packets) := by
  induction packets generalizing envs with
  | nil => exact keeps_pure _ _
  | cons packet packets ih =>
    refine (sendSide_send (envs 0) (hpackets packet List.mem_cons_self)).bind fun _ => ?_
    exact Keeps.bind (fun _ hc => hc) fun _ => ih _ fun b hb => hpackets b (List.mem_cons_of_mem _ hb)

theorem sendSide_checkRetransmissions (envs : Nat → Env) : Keeps SendSide (checkRetransmissions envs) := by
  intro c hc
  unfold checkRetransmissions
  rw [bind_apply]
  refine sendSide_sendAll envs ?_ _ ?_
  · intro b hb
    exact not_nack (hc.queued.expired hb) (by decide)
  · exact ⟨hc.maxSize, (SendQueue.len_getExpired _ _ _ _).trans_le hc.len, hc.queued.getExpired _ _ _, hc.nacks, hc.sent⟩

theorem sendSide_track (env : Env) (seq : U24) {datagram : Bytes}
    (hdatagram : datagram.head? = some (bitFlagDatagram ||| bitFlagValid)) : Keeps SendSide (track env seq datagram) := by
  intro c hc
  refine ⟨(SendQueue.maxSize_insert _ _ _ _).trans hc.maxSize, ?_, hc.queued.insert env.now seq.get hdatagram, hc.nacks,
    hc.sent⟩
  show (c.shared.sendQueue.insert env.now seq.get datagram).2.len ≤ 2048
  rcases SendQueue.insert_cases c.shared.sendQueue env.now seq.get datagram with ⟨-, he⟩ | ⟨hroom, -⟩
  · rw [he]
    exact hc.len
  · rw [hc.maxSize] at hroom
    exact (SendQueue.len_insert_le c.shared.sendQueue env.now seq.get datagram).trans hroom

theorem sendSide_handleAck (ranges : AckRangeList) : Keeps SendSide (handleAck ranges) := by
  intro c hc
  have hremoves := removes_ackQueue c.shared.sendQueue ranges
  exact ⟨hremoves.maxSize.trans hc.maxSize, hremoves.len_le.trans hc.len, hc.queued.removes hremoves, hc.nacks, hc.sent⟩

/-- nothing is ever pending in the NACK list, so nothing is flushed -/
theorem sendSide_flushNacks (env : Env) : Keeps SendSide (flushNacks env) := by
  intro c hc
  have hempty : c.shared.pendingNacks.ranges.isEmpty = true := by
    rw [hc.nacks]
    rfl
  have hflush : flushNacks env c = (.ok (), { c with shared := { c.shared with pendingNacks := .new } }) := by
    unfold flushNacks
    rw [bind_apply]
    dsimp only [onShared]
    rw [if_pos hempty]
    rfl
  rw [hflush]
  exact ⟨hc.maxSize, hc.len, hc.queued, rfl, hc.sent⟩

theorem sendSide_sendFrame (env : Env) (payload : Bytes) (split : Option SplitInfo) :
    Keeps SendSide (sendFrame env payload split) :=
  keeps_sendFrame (fun _ _ => fun _ hc => hc)
    (fun env _ _ hdatagram => (sendSide_send env (not_nack hdatagram (by decide))).bind fun _ =>
      Keeps.bind (fun _ hc => hc) fun _ => fun _ hc => hc)
    (fun env seq _ hdatagram => sendSide_track env seq hdatagram) env payload split

theorem accesses_sendSide (p : Profile) : AllAccesses p SendSide where
  pong env _ := sendSide_send env (not_nack rfl (by decide))
  goodbye env := sendSide_send env (not_nack rfl (by decide))
  handleConnectionRequest := keeps_handleConnectionRequest fun env _ _ _ => sendSide_sendFrame env _ none
  sendFrame := sendSide_sendFrame
  splitId := fun _ hc => hc
  state _ _ hc := hc
  notifier _ _ _ hc := hc
  flushAcks env := Keeps.bind (fun _ hc => hc) fun _ => Keeps.ite (keeps_pure _ _)
    ((sendSide_send env (not_nack rfl (by decide))).bind fun _ => fun _ hc => hc)
  flushNacks := sendSide_flushNacks
  checkRetransmissions := sendSide_checkRetransmissions
  cleanupExpired _ := fun _ hc => hc
  sendKeepalivePing env := Keeps.bind (fun _ hc => hc) fun _ =>
    (sendSide_send env (not_nack rfl (by decide))).bind fun _ => fun _ hc => hc
  handleConnectedPong := keeps_handleConnectedPong (fun _ _ hc => hc) fun _ _ hc => hc
  markReceived _ := fun _ hc => hc
  recordAck _ := fun _ hc => hc
  handleAck := sendSide_handleAck
  advanceChannel frame := (preserves_advanceChannel frame).keeps SendSide
  handleGamePacket env frame := (preserves_handleGamePacket p env frame).keeps SendSide

/-- the frames of a datagram are part of it -/
theorem decodeDatagram_length {packet framesData : Bytes} {seq : U24} (h : decodeDatagram packet = .ok (seq, framesData)) :
    framesData.length ≤ packet.length := by
  unfold decodeDatagram at h
  split_ifs at h
  · cases packet with
    | nil => cases h
    | cons packetId b =>
      dsimp only at h
      split_ifs at h
      · obtain ⟨seq', -, h⟩ := Outcome.bind_eq_ok.1 h
        cases h
        exact Nat.le_succ _

theorem yields_beginPacket (p : Profile) (env : Env) (packet : Bytes) :
    Yields (fun rest => ∀ framesData, rest = some framesData → framesData.length ≤ packet.length)
      (beginPacket p env packet) := by
  have hnone : ∀ framesData : Bytes, none = some framesData → framesData.length ≤ packet.length := by simp
  unfold beginPacket
  cases packet with
  | nil => exact yields_pure hnone
  | cons packetId b =>
    refine Yields.ite (Yields.bind fun _ => yields_pure hnone) ?_
    refine Yields.ite (Yields.bind fun _ => yields_pure hnone) ?_
    refine Yields.ite (Yields.bind fun _ => Yields.bind fun _ => yields_pure hnone) ?_
    refine Yields.ite (Yields.lift_bind ?_) ?_
    · rintro ⟨seq, framesData⟩ hd
      refine Yields.bind fun answer => Yields.ite (Yields.bind fun _ => yields_pure ?_) (yields_pure hnone)
      rintro rest ⟨⟩
      exact decodeDatagram_length hd
    refine Yields.ite (Yields.bind fun _ => Yields.bind fun _ => yields_pure hnone) ?_
    exact Yields.ite (Yields.bind fun _ => Yields.bind fun _ => yields_pure hnone) (yields_pure hnone)

end Conn

namespace Stream

open Conn

/-! ## Along a run -/

/-- the bytes of the packet at hand that are not handled yet -/
def remaining : Phase → Nat
  | .frames _ rest => rest.length
  | .top | .waiting | .ended => 0

/-- the length of the packet a step takes from the socket -/
def accepted (s : Stream) : Op → Nat
  | .packet _ packet => if s.phase = .waiting then (packet.take recvBufferSize).length else 0
  | _ => 0

/-- the bytes taken from the socket along a run -/
def acceptedBytes (p : Profile) (s : Stream) (ops : List Op) : Nat := (Machine.trace (next p) (fun s op => [accepted s op]) s ops).sum

/-- the bytes delivered, held, and at hand -/
def load (s : Stream) : Nat := (heldView s.conn).volume + remaining s.phase

/-- the bytes of the frames a part of a packet leaves -/
def left : Result (Option Bytes) → Nat
  | .ok (some rest) => rest.length
  | _ => 0

theorem load_settle (env : Env) (len : Nat) (r : Result (Option Bytes) × Conn) :
    (heldView (Session.settle env len r).conn).volume + remaining (Session.settle env len r).phase =
      (heldView r.2).volume + left r.1 := by
  obtain ⟨res, c⟩ := r
  cases res with
  | ok rest => cases rest <;> rfl
  | err e => rfl
  | panic => rfl

/-- everything but frames adds nothing to what is held -/
theorem accesses_volume (p : Profile) (v : Nat) : Accesses p (fun c => (heldView c).volume ≤ v) :=
  accesses_held p (I := fun h => h.volume ≤ v) fun h now hv => by
    refine le_trans ?_ hv
    exact Nat.add_le_add_left (h.fragments.volume_cleanupExpired now) _

theorem volume_beginPacket (p : Profile) (env : Env) (packet : Bytes) (c : Conn) :
    (heldView (beginPacket p env packet c).2).volume ≤ (heldView c).volume :=
  (accesses_volume p (heldView c).volume).beginPacket env (c := c) (le_refl _) fun _ =>
    held_handleConnectedPong p (fun h => h.volume ≤ (heldView c).volume) env packet c (le_refl _)

/-- a round of the frame loop: what the frame adds was in its bytes -/
theorem load_frameStep (p : Profile) (env : Env) (rest : Bytes) (c : Conn) :
    (heldView (frameStep p env rest c).2).volume + left (frameStep p env rest c).1 ≤ (heldView c).volume + rest.length := by
  cases rest with
  | nil => exact le_refl _
  | cons x b =>
    cases hd : Frame.decode p (x :: b) with
    | ok r =>
      obtain ⟨f, rest⟩ := r
      have hbytes := Frame.decode_consumes hd
      have hpayload : f.payload.length ≤ f.encodedSize := by
        unfold Frame.encodedSize
        omega
      have hvolume : (heldView (frameStep p env (x :: b) c).2).volume ≤ (heldView c).volume + f.payload.length := by
        rw [Session.frameStep_conn hd, heldView_handleFrame]
        exact Held.volume_after p env.now _ _ f
      have hleft : left (frameStep p env (x :: b) c).1 ≤ rest.length := by
        simp only [frameStep, Action.bind_apply, Action.lift_apply, hd]
        cases handleFrame p env f c with
        | mk res c' =>
          cases res with
          | ok u => exact le_refl _
          | err e => exact Nat.zero_le _
          | panic => exact Nat.zero_le _
      omega
    | err e =>
      simp only [frameStep, Action.bind_apply, Action.lift_apply, hd]
      exact Nat.add_le_add_left (Nat.zero_le _) _
    | panic =>
      simp only [frameStep, Action.bind_apply, Action.lift_apply, hd]
      exact Nat.add_le_add_left (Nat.zero_le _) _

/-- a step that handles no frame leaves the volume as it is, or less -/
theorem volume_next_le (p : Profile) (s : Stream) {op : Op} (hop : ∀ env, op ≠ .frame env) :
    (heldView (next p s op).conn).volume ≤ (heldView s.conn).volume := by
  have hnoframe : ∀ env len rest, op = .frame env → s.phase = .frames len rest →
      (heldView (frameStep p env rest s.conn).2).volume ≤ (heldView s.conn).volume := fun env _ _ he => absurd he (hop env)
  have hsend : ∀ env, op = .sendTask env → (heldView (s.sendStep p env).conn).volume ≤ (heldView s.conn).volume := fun env _ =>
    sendStep_keeps (held_sendFrame fun h => h.volume ≤ (heldView s.conn).volume) (fun _ hc => hc) env (le_refl _)
  have htick : ∀ envs, op = .tickTask envs → (heldView (s.tickStep p envs).conn).volume ≤ (heldView s.conn).volume := fun envs _ =>
    tickStep_keeps (accesses_volume p (heldView s.conn).volume) (held_sendKeepalivePing fun h => h.volume ≤ (heldView s.conn).volume) envs
      (le_refl _)
  have hpacket : ∀ env packet, op = .packet env packet → s.phase = .waiting →
      (heldView (beginPacket p env (packet.take recvBufferSize) s.conn).2).volume ≤ (heldView s.conn).volume :=
    fun env packet _ _ => volume_beginPacket p env (packet.take recvBufferSize) s.conn
  rcases next_cases_of (accesses_volume p (heldView s.conn).volume).toCoreAccesses (le_refl _) op hsend htick hpacket hnoframe
    with ⟨-, hnext⟩ | ⟨_, _, c, -, hc, hnext⟩
  · exact hnext
  · rw [hnext]
    exact hc

/-- a step of another task leaves the receive task where it is -/
theorem remaining_next_le (p : Profile) (s : Stream) {op : Op} (hpacket : ∀ env packet, op ≠ .packet env packet)
    (hframe : ∀ env, op ≠ .frame env) : remaining (next p s op).phase ≤ remaining s.phase := by
  have hsession : ∀ op : Session.Op, op = .check ∨ op = .recvError →
      remaining (Session.step p s.closers.session op).phase ≤ remaining s.closers.session.phase := by
    rintro op (rfl | rfl)
    · unfold Session.step
      cases hph : s.closers.session.phase with
      | top =>
        dsimp only
        split_ifs <;> exact Nat.zero_le _
      | _ => exact (congrArg remaining hph).le
    · unfold Session.step
      cases hph : s.closers.session.phase with
      | waiting => exact Nat.zero_le _
      | _ => exact (congrArg remaining hph).le
  by_cases hcheck : op = .check
  · rw [hcheck]
    exact hsession .check (.inl rfl)
  by_cases herror : op = .socketError
  · rw [herror]
    exact hsession .recvError (.inr rfl)
  rw [phase_next hcheck hpacket herror hframe]

/-- **One step.** -/
theorem load_next (p : Profile) (s : Stream) (op : Op) : load (next p s op) ≤ load s + accepted s op := by
  have hother : (∀ env packet, op ≠ .packet env packet) → (∀ env, op ≠ .frame env) →
      load (next p s op) ≤ load s + accepted s op := fun hpacket hframe =>
    (Nat.add_le_add (volume_next_le p s hframe) (remaining_next_le p s hpacket hframe)).trans (Nat.le_add_right _ _)
  cases op with
  | packet env packet =>
    cases hph : s.closers.session.phase with
    | waiting =>
      have hsession : (next p s (.packet env packet)).closers.session =
          Session.settle env (packet.take recvBufferSize).length (beginPacket p env (packet.take recvBufferSize) s.conn) := by
        simp only [next, step, onSession, Session.step, hph]
        rfl
      have hvolume := volume_beginPacket p env (packet.take recvBufferSize) s.conn
      have hyields := yields_beginPacket p env (packet.take recvBufferSize) s.conn
      have hload := load_settle env (packet.take recvBufferSize).length (beginPacket p env (packet.take recvBufferSize) s.conn)
      rw [← hsession] at hload
      have haccepted : accepted s (.packet env packet) = (packet.take recvBufferSize).length := if_pos hph
      have hleft : left (beginPacket p env (packet.take recvBufferSize) s.conn).1 ≤ (packet.take recvBufferSize).length := by
        cases hr : beginPacket p env (packet.take recvBufferSize) s.conn with
        | mk res c =>
          cases res with
          | ok rest =>
            cases rest with
            | none => exact Nat.zero_le _
            | some rest => exact hyields _ _ hr rest rfl
          | err e => exact Nat.zero_le _
          | panic => exact Nat.zero_le _
      have hlast : load (next p s (.packet env packet)) = _ := hload
      have hbefore : (heldView s.conn).volume ≤ load s := Nat.le_add_right _ _
      omega
    | _ =>
      have hsame : next p s (.packet env packet) = s := by
        simp only [next, step, onSession, Session.step, hph]
      rw [hsame]
      exact Nat.le_add_right _ _
  | frame env =>
    cases hph : s.closers.session.phase with
    | frames len rest =>
      have hsession : (next p s (.frame env)).closers.session = Session.settle env len (frameStep p env rest s.conn) := by
        simp only [next, step, onSession, Session.step, hph]
        rfl
      have hload := load_settle env len (frameStep p env rest s.conn)
      rw [← hsession] at hload
      have hlast : load (next p s (.frame env)) = _ := hload
      have hbefore : load s = (heldView s.conn).volume + rest.length := congrArg (fun ph => (heldView s.conn).volume + remaining ph) hph
      have hstep := load_frameStep p env rest s.conn
      omega
    | _ =>
      have hsame : next p s (.frame env) = s := by
        simp only [next, step, onSession, Session.step, hph]
      rw [hsame]
      exact Nat.le_add_right _ _
  | check | socketError | sendTask | tickTask | send | recv | close | proceed | drop =>
    exact hother (fun _ _ => Op.noConfusion) fun _ => Op.noConfusion

theorem load_run (p : Profile) (s : Stream) (ops : List Op) : load (run p s ops) ≤ load s + acceptedBytes p s ops := by
  induction ops generalizing s with
  | nil => exact Nat.le_add_right _ _
  | cons op ops ih =>
    have htrace : acceptedBytes p s (op :: ops) = accepted s op + acceptedBytes p (next p s op) ops := List.sum_cons
    rw [run, Machine.run_cons, ← run, htrace]
    calc load (run p (next p s op) ops) ≤ load (next p s op) + acceptedBytes p (next p s op) ops := ih (next p s op)
      _ ≤ load s + accepted s op + acceptedBytes p (next p s op) ops := Nat.add_le_add_right (load_next p s op) _
      _ = load s + (accepted s op + acceptedBytes p (next p s op) ops) := Nat.add_assoc _ _ _

/-- **Nothing is amplified.** In every run of a fresh stream, the bytes handed to the application, those waiting in the
ordered channels and in the fragment queue, and those of the packet at hand that are not handled yet are together no more
than the bytes the receive task took from the socket. -/
theorem load_le_accepted (p : Profile) (mtu : UInt16) (nowMicros : Nat) (ready : Bool) (ops : List Op) :
    load (run p (new mtu nowMicros ready) ops) ≤ acceptedBytes p (new mtu nowMicros ready) ops := by
  have hfresh : load (new mtu nowMicros ready) = 0 := by
    have hsum : ∑ i : Fin 16, ((Vector.replicate 16 OrderedChannel.new).get i).volume = 0 := by
      refine Finset.sum_eq_zero fun i _ => ?_
      rw [Held.get_replicate, OrderedChannel.volume_new]
    show 0 + ∑ i : Fin 16, ((Vector.replicate 16 OrderedChannel.new).get i).volume + FragmentQueue.new.volume + 0 = 0
    rw [hsum, FragmentQueue.volume_new]
  have hrun := load_run p (new mtu nowMicros ready) ops
  rwa [hfresh, Nat.zero_add] at hrun

/-- what is bounded in a connection -/
structure WithinLimits (c : Conn) : Prop where
  sendQueue : c.shared.sendQueue.len ≤ 2048
  channels : ∀ i, (c.shared.orderedChannels.get i).queue.size ≤ 256
  fragments : c.shared.fragmentQueue.splits.size ≤ 512
  nacks : c.shared.pendingNacks = .new
  noNack : ∀ packet ∈ c.sent, packet.head? ≠ some idNack

/-- **The limits hold.** In every state a fresh stream can reach, the send queue has at most 2048 packets, each of the 16
channels at most 256 and the fragment queue at most 512 messages; no NACK is pending, and none was ever sent. -/
theorem within_limits (p : Profile) (mtu : UInt16) (nowMicros : Nat) (ready : Bool) (ops : List Op) :
    WithinLimits (run p (new mtu nowMicros ready) ops).conn := by
  have hheld : (heldView (new mtu nowMicros ready).conn).Within := by
    refine ⟨?_, ?_, rfl, Nat.zero_le _⟩
    · intro i
      exact congrArg OrderedChannel.maxQueueSize (Held.get_replicate .new i)
    · intro i
      exact (congrArg (fun c => c.queue.size) (Held.get_replicate .new i)).trans_le (Nat.zero_le _)
  have hsend : SendSide (new mtu nowMicros ready).conn := by
    refine ⟨rfl, Nat.zero_le _, SendQueue.holds_new, rfl, ?_⟩
    intro packet hpacket
    cases hpacket
  have hwithin := run_keeps (accesses_within p) (fun _ _ _ hc => hc) hheld ops
  have hside := run_keeps (accesses_sendSide p) (fun _ _ _ hc => hc) hsend ops
  exact ⟨hside.len, hwithin.channels, hwithin.fragments, hside.nacks, hside.sent⟩

end Stream

end RakNet
