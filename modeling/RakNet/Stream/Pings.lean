/-
Where the round-trip estimate of a stream comes from.

The tick task notes a keepalive ping with its timestamp before it sends it; a pong takes the note with its timestamp out, if
there is one, and the time since feeds the estimate. A pong that answers no ping, or one that was answered, does nothing.

- `estimate_afterSample`: a sample changes the estimate by the old estimate and the sample alone.
- `rtt_from_pings`: the estimate along every run of a stream.
-/
import RakNet.State.Rtt
import RakNet.Stream.Timeout

namespace RakNet

open Lib Lib.Wire

/-- a sample of the round-trip time: the timestamp of a ping, when it was noted and when its pong came -/
structure Sample where
  timestamp : Nat
  sentAt : Nat
  answeredAt : Nat
deriving DecidableEq, Repr

namespace Sample

/-- the ping, and the pong that answered it -/
def ping (x : Sample) : Nat × Nat := (x.timestamp, x.sentAt)

def pong (x : Sample) : Nat × Nat := (x.timestamp, x.answeredAt)

/-- `send_time.elapsed()` in microseconds, as `update_rtt` takes it -/
def micros (x : Sample) : Nat := (x.answeredAt - x.sentAt) / 1000 % 2 ^ 64

end Sample

namespace ConnectionMetrics

/-- the estimate and its variance -/
def estimate (m : ConnectionMetrics) : Nat × Nat := (m.rtt, m.rttVar)

theorem estimate_afterSample (p : Profile) {m m' : ConnectionMetrics} (h : m.estimate = m'.estimate) (sampleMicros : Nat) :
    (m.afterSample p sampleMicros).estimate = (m'.afterSample p sampleMicros).estimate := by
  have hrtt : m.rtt = m'.rtt := congrArg Prod.fst h
  have hvar : m.rttVar = m'.rttVar := congrArg Prod.snd h
  unfold afterSample updateRtt
  rw [Action.get_bind, Action.get_bind]
  simp only [Action.bind_apply, Action.lift_apply, Action.modify_apply, hrtt, hvar]
  cases p.mul 64 m'.rtt 7 with
  | ok weighted =>
    dsimp only
    cases p.add 64 weighted sampleMicros with
    | ok sum =>
      dsimp only
      cases p.mul 64 m'.rttVar 3 with
      | ok weightedVar =>
        dsimp only
        cases p.add 64 weightedVar (if m'.rtt < sampleMicros then sampleMicros - m'.rtt else m'.rtt - sampleMicros) with
        | ok sumVar => rfl
        | err e | panic => exact Prod.ext rfl hvar
      | err e | panic => exact Prod.ext rfl hvar
    | err e | panic => exact h
  | err e | panic => exact h

/-- the estimate of a fresh stream after some samples -/
def sampled (p : Profile) (samples : List Sample) : Nat × Nat :=
  (samples.foldl (fun m x => m.afterSample p x.micros) (new 0)).estimate

/-- one sample more -/
theorem sampled_snoc {p : Profile} {m : ConnectionMetrics} {samples : List Sample} (h : m.estimate = sampled p samples)
    (x : Sample) : (m.afterSample p x.micros).estimate = sampled p (samples ++ [x]) := by
  rw [sampled, List.foldl_append]
  exact estimate_afterSample p h x.micros

end ConnectionMetrics

namespace Conn

open Action

/-- the pending pings and the estimate -/
def pingView (c : Conn) : NatMap Nat × Nat × Nat := (c.shared.pendingPings, c.shared.metrics.estimate)

/-- the estimate is that of some samples: their pings and the pending ones are different ones of these pings, and their pongs
are of these pongs, in order -/
structure Sampled (p : Profile) (pings pongs : List (Nat × Nat)) (samples : List Sample) (view : NatMap Nat × Nat × Nat) :
    Prop where
  estimate : view.2 = ConnectionMetrics.sampled p samples
  pings : (samples.map Sample.ping ++ view.1.toList).Subperm pings
  pongs : (samples.map Sample.pong).Sublist pongs

/-- the estimate comes from these pings and pongs -/
def FromPings (p : Profile) (pings pongs : List (Nat × Nat)) (c : Conn) : Prop :=
  ∃ samples, Sampled p pings pongs samples (pingView c)

theorem FromPings.mono {p : Profile} {pings pongs : List (Nat × Nat)} {c : Conn} (h : FromPings p pings pongs c)
    (morePings morePongs : List (Nat × Nat)) : FromPings p (pings ++ morePings) (pongs ++ morePongs) c := by
  obtain ⟨samples, hs⟩ := h
  exact ⟨samples, hs.estimate, hs.pings.trans (List.sublist_append_left _ _).subperm,
    hs.pongs.trans (List.sublist_append_left _ _)⟩

theorem preserves_pingView_send (env : Env) (packet : Bytes) : Preserves pingView (socketSend env packet) :=
  (wire_socketSend env packet).comp pingView

theorem preserves_pingView_counted (env : Env) (packet : Bytes) :
    Preserves pingView (do socketSend env packet; recordSend env packet.length : Act Unit) :=
  (preserves_pingView_send env packet).bind fun _ => fun _ => rfl

theorem preserves_pingView_sendAll (envs : Nat → Env) (packets : List Bytes) : Preserves pingView (sendAll envs packets) := by
  induction packets generalizing envs with
  | nil => exact preserves_pure _ _
  | cons b packets ih => exact (preserves_pingView_send (envs 0) b).bind fun _ => Preserves.bind (fun _ => rfl) fun _ => ih _

/-- the timestamp a pong answers, and when it came -/
def pongIn (env : Env) (packet : Bytes) : List (Nat × Nat) :=
  match decodeConnectedPong packet with
  | .ok t => [(t.1.toNat, env.now)]
  | _ => []

/-- a pong: it answers a pending ping, or does nothing -/
theorem fromPings_handleConnectedPong {p : Profile} {pings pongs : List (Nat × Nat)} {c : Conn}
    (h : FromPings p pings pongs c) (env : Env) (packet : Bytes) :
    FromPings p pings (pongs ++ pongIn env packet) (handleConnectedPong p env packet c).2 := by
  have hmore := h.mono [] (pongIn env packet)
  rw [List.append_nil] at hmore
  unfold handleConnectedPong
  unfold pongIn at hmore ⊢
  cases hd : decodeConnectedPong packet with
  | ok t =>
    rw [hd] at hmore
    rw [lift_ok_bind, get_bind]
    cases hping : c.shared.pendingPings[t.1.toNat]? with
    | none => exact hmore
    | some sendTime =>
      obtain ⟨samples, hs⟩ := h
      refine ⟨samples ++ [⟨t.1.toNat, sendTime, env.now⟩], ?_, ?_, ?_⟩
      · exact ConnectionMetrics.sampled_snoc hs.estimate ⟨t.1.toNat, sendTime, env.now⟩
      · refine List.Subperm.trans (List.Perm.subperm ?_) hs.pings
        rw [List.map_append, List.append_assoc]
        exact ((NatMap.toList_erase_perm hping).symm).append_left _
      · rw [List.map_append]
        exact hs.pongs.append_right _
  | err e =>
    rw [hd] at hmore
    exact hmore
  | panic =>
    rw [hd] at hmore
    exact hmore

theorem fromPings_sendFrame (p : Profile) (pings pongs : List (Nat × Nat)) (env : Env) (payload : Bytes)
    (split : Option SplitInfo) : Keeps (FromPings p pings pongs) (sendFrame env payload split) :=
  keeps_sendFrame (fun _ _ => fun _ hc => hc)
    (fun env _ datagram _ => ((preserves_pingView_send env datagram).bind fun _ =>
      Preserves.bind (fun _ => rfl) fun _ => fun _ => rfl).keeps fun v => ∃ samples, Sampled p pings pongs samples v)
    (fun _ _ _ _ => fun _ hc => hc) env payload split

/-- **The estimate comes from the pings and pongs** under every access but those. -/
theorem accesses_fromPings (p : Profile) (pings pongs : List (Nat × Nat)) : Accesses p (FromPings p pings pongs) where
  pong env _ := (preserves_pingView_send env _).keeps fun v => ∃ samples, Sampled p pings pongs samples v
  goodbye env := (preserves_pingView_send env _).keeps fun v => ∃ samples, Sampled p pings pongs samples v
  handleConnectionRequest := keeps_handleConnectionRequest fun env _ _ _ => fromPings_sendFrame p pings pongs env _ none
  state _ _ hc := hc
  notifier _ _ _ hc := hc
  flushAcks env := (Preserves.bind (fun _ => rfl) fun _ => Preserves.ite (preserves_pure _ _)
    (preserves_pingView_counted env _)).keeps fun v => ∃ samples, Sampled p pings pongs samples v
  flushNacks env := (Preserves.bind (fun _ => rfl) fun _ => Preserves.ite (preserves_pure _ _)
    (preserves_pingView_counted env _)).keeps fun v => ∃ samples, Sampled p pings pongs samples v
  checkRetransmissions envs := (Preserves.bind (fun _ => rfl) fun packets =>
    preserves_pingView_sendAll envs packets).keeps fun v => ∃ samples, Sampled p pings pongs samples v
  cleanupExpired _ := fun _ hc => hc
  markReceived _ := fun _ hc => hc
  recordAck _ := fun _ hc => hc
  handleAck _ := fun _ hc => hc

/-- a keepalive ping is one more -/
theorem fromPings_sendKeepalivePing {p : Profile} {pings pongs : List (Nat × Nat)} {c : Conn}
    (h : FromPings p pings pongs c) (env : Env) :
    FromPings p (pings ++ [(env.unixMillis.toNat, env.now)]) pongs (sendKeepalivePing env c).2 := by
  obtain ⟨samples, hs⟩ := h
  have hview : pingView (sendKeepalivePing env c).2 =
      (c.shared.pendingPings.insert env.unixMillis.toNat env.now, c.shared.metrics.estimate) :=
    preserves_pingView_counted env (encodeConnectedPing env.unixMillis)
      { c with shared := { c.shared with pendingPings := c.shared.pendingPings.insert env.unixMillis.toNat env.now } }
  refine ⟨samples, ?_, ?_, hs.pongs⟩
  · rw [hview]
    exact hs.estimate
  · rw [hview]
    have hinsert := NatMap.toList_insert_perm c.shared.pendingPings env.unixMillis.toNat env.now
    have hless := NatMap.toList_erase_subperm c.shared.pendingPings env.unixMillis.toNat
    have hmore : (samples.map Sample.ping ++ (c.shared.pendingPings.insert env.unixMillis.toNat env.now).toList).Perm
        ((env.unixMillis.toNat, env.now) ::
          (samples.map Sample.ping ++ (c.shared.pendingPings.erase env.unixMillis.toNat).toList)) :=
      (hinsert.append_left _).trans List.perm_middle
    have hpings : (samples.map Sample.ping ++ (c.shared.pendingPings.erase env.unixMillis.toNat).toList).Subperm pings :=
      ((List.subperm_append_left _).2 hless).trans hs.pings
    exact hmore.subperm.trans (((List.subperm_cons _).2 hpings).trans (List.perm_append_singleton _ _).symm.subperm)

end Conn

namespace Stream

open Conn Action

/-- the keepalive ping a step notes: its timestamp and the moment -/
def noted (s : Stream) (op : Op) : List (Nat × Nat) :=
  match op with
  | .tickTask envs => if s.pings op then [((envs 0).unixMillis.toNat, (envs 0).now)] else []
  | _ => []

/-- the keepalive pings of a run -/
def keepalives (p : Profile) (s : Stream) (ops : List Op) : List (Nat × Nat) := Machine.trace (next p) noted s ops

/-- the pong a step handles, as a packet of its own or in a frame: the timestamp it answers and the moment -/
def answeredBy (p : Profile) (s : Stream) (op : Op) : List (Nat × Nat) :=
  match op with
  | .packet env packet =>
    if s.phase = .waiting ∧ (packet.take recvBufferSize).head? = some idConnectedPong then
      pongIn env (packet.take recvBufferSize)
    else []
  | .frame env =>
    match Session.frameOf p s.closers.session (.frame env) with
    | some frame => if kind s.conn frame = .pong then pongIn env frame.payload else []
    | none => []
  | _ => []

/-- the pongs of a run -/
def pongs (p : Profile) (s : Stream) (ops : List Op) : List (Nat × Nat) := Machine.trace (next p) (answeredBy p) s ops

variable {p : Profile} {s : Stream} {asked answered : List (Nat × Nat)}

theorem fromPings_frame (h : FromPings p asked answered s.conn) {env : Env} {len : Nat} {rest : Bytes}
    (hph : s.phase = .frames len rest) :
    FromPings p asked (answered ++ answeredBy p s (.frame env)) (frameStep p env rest s.conn).2 := by
  have haccesses := accesses_fromPings p asked (answered ++ answeredBy p s (.frame env))
  have hmore := h.mono [] (answeredBy p s (.frame env))
  rw [List.append_nil] at hmore
  refine haccesses.frameStep
    (fun frame => ((preserves_advanceChannel frame).comp pingView).keeps fun v => ∃ samples, Sampled p _ _ samples v)
    (fun env frame => ((preserves_handleGamePacket p env frame).comp pingView).keeps fun v => ∃ samples, Sampled p _ _ samples v)
    env hmore ?_
  rintro x b frame rest' rfl hd hkind
  have hph' : s.closers.session.phase = .frames len (x :: b) := hph
  have hframe : Session.frameOf p s.closers.session (.frame env) = some frame := by
    simp only [Session.frameOf, hph', hd]
  have hpong : answeredBy p s (.frame env) = pongIn env frame.payload := by
    unfold answeredBy
    dsimp only
    rw [hframe]
    exact if_pos hkind
  rw [hpong]
  exact fromPings_handleConnectedPong h env frame.payload

theorem fromPings_packet (h : FromPings p asked answered s.conn) {env : Env} {packet : Bytes} (hph : s.phase = .waiting) :
    FromPings p asked (answered ++ answeredBy p s (.packet env packet))
      (beginPacket p env (packet.take recvBufferSize) s.conn).2 := by
  have haccesses := accesses_fromPings p asked (answered ++ answeredBy p s (.packet env packet))
  have hmore := h.mono [] (answeredBy p s (.packet env packet))
  rw [List.append_nil] at hmore
  refine haccesses.beginPacket env hmore fun hhead => ?_
  have hpong : answeredBy p s (.packet env packet) = pongIn env (packet.take recvBufferSize) := if_pos ⟨hph, hhead⟩
  rw [hpong]
  exact fromPings_handleConnectedPong h env _

theorem fromPings_next (h : FromPings p asked answered s.conn) (op : Op) :
    FromPings p (asked ++ noted s op) (answered ++ answeredBy p s op) (next p s op).conn := by
  have haccesses := accesses_fromPings p (asked ++ noted s op) (answered ++ answeredBy p s op)
  have hmore : FromPings p (asked ++ noted s op) (answered ++ answeredBy p s op) s.conn := h.mono _ _
  have hpinged : FromPings p (asked ++ noted s op) answered s.conn := by
    have hsame := h.mono (noted s op) []
    rwa [List.append_nil] at hsame
  have htick : ∀ envs, op = .tickTask envs →
      FromPings p (asked ++ noted s op) (answered ++ answeredBy p s op) (s.tickStep p envs).conn := by
    rintro envs rfl
    refine tickStep_keeps_of haccesses hmore fun hping => ?_
    have hnoted : noted s (.tickTask envs) = [((envs 0).unixMillis.toNat, (envs 0).now)] := if_pos hping
    have hnone : answeredBy p s (.tickTask envs) = [] := rfl
    rw [hnoted, hnone, List.append_nil]
    exact fromPings_sendKeepalivePing h (envs 0)
  rcases next_cases_of haccesses.toCoreAccesses hmore op
    (fun env _ => sendStep_keeps (fromPings_sendFrame p _ _) (fun _ hc => hc) env hmore) htick
    (by rintro env packet rfl hph; exact fromPings_packet hpinged hph)
    (by rintro env len rest rfl hph; exact fromPings_frame hpinged hph) with ⟨-, hnext⟩ | ⟨env, len, c, -, hc, hnext⟩
  · exact hnext
  · rw [hnext]
    exact hc

theorem fromPings_run (h : FromPings p asked answered s.conn) (ops : List Op) :
    FromPings p (asked ++ keepalives p s ops) (answered ++ pongs p s ops) (run p s ops).conn := by
  induction ops generalizing s asked answered with
  | nil => exact h.mono [] []
  | cons op ops ih =>
    have hrest := ih (fromPings_next h op)
    rw [keepalives, pongs, Machine.trace, Machine.trace, ← List.append_assoc, ← List.append_assoc]
    exact hrest

/-- **The round-trip estimate comes from the stream's own pings.** In every run of a fresh stream, the estimate and its variance
are those of samples each of which is the time from a keepalive ping of the tick task to a pong with its timestamp, in the
order of the pongs; no ping gives more than one sample, and the pings that are pending have given none. -/
theorem rtt_from_pings (p : Profile) (mtu : UInt16) (nowMicros : Nat) (ready : Bool) (ops : List Op) :
    ∃ samples : List Sample,
      (run p (new mtu nowMicros ready) ops).conn.shared.metrics.estimate = ConnectionMetrics.sampled p samples ∧
      (samples.map Sample.ping ++ (run p (new mtu nowMicros ready) ops).conn.shared.pendingPings.toList).Subperm
        (keepalives p (new mtu nowMicros ready) ops) ∧
      (samples.map Sample.pong).Sublist (pongs p (new mtu nowMicros ready) ops) := by
  have hempty : (new mtu nowMicros ready).conn.shared.pendingPings.toList = [] := NatMap.toList_empty
  have hfresh : FromPings p [] [] (new mtu nowMicros ready).conn := by
    refine ⟨[], rfl, ?_, List.Sublist.refl _⟩
    show ([] ++ (new mtu nowMicros ready).conn.shared.pendingPings.toList).Subperm []
    rw [hempty]
    exact List.Subperm.refl _
  obtain ⟨samples, hs⟩ := fromPings_run (p := p) hfresh ops
  exact ⟨samples, hs.estimate, hs.pings, hs.pongs⟩

end Stream

end RakNet
