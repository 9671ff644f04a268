/-
What a stream still does once its connection is disconnected.

Every task checks the state at the top of its loop only: the receive task goes through the frames of the packet it has, or
waits for one more, the send task sends the rest of its message, and the tick task ends its round. Nothing new begins.

- `Stream.stepsLeft`: how many steps the tasks and the calls of `close` have left at most.
- `wind_down`: what the steps after the disconnection do.
- `tasks_end`: a dropped handle ends the send task and the tick task, and the receive task unless no packet comes.
-/
import RakNet.Stream.Handle

namespace RakNet

open Lib Lib.Wire

/-- the steps of the receive task on a disconnected connection, at most -/
def Phase.stepsLeft : Phase → Nat
  | .waiting => Conn.recvBufferSize + 3
  | .frames _ rest => rest.length + 2
  | .top => 1
  | .ended => 0

/-- the steps of the send task, at most -/
def SendPlace.stepsLeft : SendPlace → Nat
  | .fragments _ _ _ chunks => chunks.length + 2
  | .waiting => 1
  | .ended => 0

/-- the steps of the tick task, at most -/
def TickPlace.stepsLeft : TickPlace → Nat
  | .timeout => 7
  | .flushAcks => 6
  | .flushNacks => 5
  | .retransmit => 4
  | .cleanup => 3
  | .keepalive => 2
  | .waiting => 1
  | .ended => 0

namespace Conn

open Action

theorem isClosed_of_disconnected {c : Conn} (h : c.shared.state = .disconnected) : c.shared.isClosed = true := by
  unfold SharedState.isClosed
  rw [h]
  rfl

theorem isConnected_of_disconnected {c : Conn} (h : c.shared.state = .disconnected) : c.shared.isConnected = false := by
  unfold SharedState.isConnected
  rw [h]
  rfl

/-- a second end changes nothing -/
theorem markDisconnected_of_disconnected {c : Conn} (h : c.shared.state = .disconnected) :
    ({ c with shared := c.shared.markDisconnected } : Conn) = c := by
  unfold SharedState.markDisconnected
  rw [← h]

/-- a new call of `close` finds nothing to do -/
theorem enter_of_disconnected {c : Conn} (h : c.shared.state = .disconnected) : Call.enter c = (⟨false, false, none⟩, c) := by
  have hrefused : c.shared.markDisconnecting = (false, c.shared.markDisconnected) := by
    unfold SharedState.markDisconnecting
    rw [h]
    rfl
  unfold Call.enter
  rw [hrefused]
  exact Prod.ext rfl (markDisconnected_of_disconnected h)

/-- a round of the frame loop takes a frame off the bytes it has -/
theorem yields_frameStep (p : Profile) (env : Env) (rest : Bytes) :
    Yields (fun r => ∀ rest', r = some rest' → rest'.length < rest.length) (frameStep p env rest) := by
  cases rest with
  | nil => exact yields_pure (by simp)
  | cons x b =>
    refine Yields.lift_bind ?_
    rintro ⟨frame, rest'⟩ hd
    refine Yields.bind fun _ => yields_pure ?_
    rintro _ ⟨⟩
    have hbytes := Frame.decode_consumes hd
    have hframe := frame.three_le_encodedSize
    omega

end Conn

namespace Stream

open Conn Action

/-- the steps that the tasks and the calls of `close` have left on a disconnected connection, at most -/
def stepsLeft (s : Stream) : Nat :=
  s.phase.stepsLeft + s.sending.stepsLeft + s.ticking.stepsLeft + s.closers.calls.countP Call.sending

/-! ## The tasks -/

/-- where a part of a packet leaves the receive task -/
theorem settle_stepsLeft (env : Env) (len : Nat) {n : Nat} {r : Result (Option Bytes) × Conn}
    (h : ∀ rest, r.1 = .ok (some rest) → rest.length < n) : (Session.settle env len r).phase.stepsLeft < n + 2 := by
  obtain ⟨res, c⟩ := r
  cases res with
  | ok rest =>
    cases rest with
    | none => exact Nat.lt_of_lt_of_le Nat.one_lt_two (Nat.le_add_left 2 n)
    | some rest => exact Nat.add_lt_add_right (h rest rfl) 2
  | err e => exact Nat.lt_of_lt_of_le Nat.one_lt_two (Nat.le_add_left 2 n)
  | panic => exact Nat.succ_pos _

/-- is the operation a step of the receive task -/
def Op.receives : Op → Bool
  | .check | .packet _ _ | .socketError | .frame _ => true
  | _ => false

/-- is the receive task at this step -/
def awaits (s : Stream) (op : Op) : Bool :=
  match op, s.phase with
  | .check, .top | .packet _ _, .waiting | .socketError, .waiting | .frame _, .frames _ _ => true
  | _, _ => false

/-- a step of the receive task is one of those it has left -/
theorem receive_stepsLeft (p : Profile) {s : Stream} (h : s.conn.shared.state = .disconnected) {op : Op}
    (hop : s.awaits op = true) : (next p s op).phase.stepsLeft < s.phase.stepsLeft := by
  have hclosed : s.closers.session.conn.shared.isClosed = true := isClosed_of_disconnected h
  unfold awaits at hop
  unfold phase at hop ⊢
  cases hph : s.closers.session.phase with
  | top =>
    rw [hph] at hop
    cases op with
    | check =>
      simp only [next, step, onSession, Session.step, hph, hclosed, if_true]
      exact Nat.one_pos
    | _ => cases hop
  | waiting =>
    rw [hph] at hop
    cases op with
    | packet env packet =>
      have hstep : (next p s (.packet env packet)).closers.session =
          Session.settle env (packet.take recvBufferSize).length (beginPacket p env (packet.take recvBufferSize) s.conn) := by
        simp only [next, step, onSession, Session.step, hph]
        rfl
      rw [hstep]
      refine settle_stepsLeft (n := recvBufferSize + 1) env _ ?_
      intro rest hrest
      have hlen := yields_beginPacket p env (packet.take recvBufferSize) s.conn _ _ (Prod.ext hrest rfl) rest rfl
      have htake := List.length_take_le recvBufferSize packet
      omega
    | socketError =>
      simp only [next, step, onSession, Session.step, hph]
      exact Nat.succ_pos _
    | _ => cases hop
  | frames len rest =>
    rw [hph] at hop
    cases op with
    | frame env =>
      have hstep : (next p s (.frame env)).closers.session = Session.settle env len (frameStep p env rest s.conn) := by
        simp only [next, step, onSession, Session.step, hph]
        rfl
      rw [hstep]
      refine settle_stepsLeft (n := rest.length) env _ ?_
      intro rest' hrest
      exact yields_frameStep p env rest s.conn _ _ (Prod.ext hrest rfl) rest' rfl
    | _ => cases hop
  | ended =>
    rw [hph] at hop
    cases op <;> cases hop

/-- the other operations leave the receive task where it is -/
theorem not_awaits (p : Profile) {s : Stream} {op : Op} (hop : s.awaits op = false) :
    (next p s op).phase = s.phase ∧ (op.receives = true → next p s op = s) := by
  have hsame : op.receives = true → next p s op = s := by
    intro hreceives
    unfold awaits phase at hop
    cases op with
    | check | packet | socketError | frame =>
      cases hph : s.closers.session.phase with
      | _ =>
        rw [hph] at hop
        first
          | simp only [next, step, onSession, Session.step, hph]; done
          | cases hop
    | _ => cases hreceives
  refine ⟨?_, hsame⟩
  cases hreceives : op.receives with
  | true => rw [hsame hreceives]
  | false =>
    have hne : ∀ op' : Op, op'.receives = true → op ≠ op' := by
      rintro op' h rfl
      rw [hreceives] at h
      cases h
    exact phase_next (hne _ rfl) (fun _ _ => hne _ rfl) (hne _ rfl) fun _ => hne _ rfl

/-- a step of the send task is one of those it has left, or it waits for a message -/
theorem sendStep_stepsLeft (p : Profile) {s : Stream} (h : s.conn.shared.state = .disconnected) (env : Env) :
    (s.sendStep p env).sending.stepsLeft < s.sending.stepsLeft ∨
      ((s.sending = .ended ∨ (s.sending = .waiting ∧ s.outgoing = [] ∧ s.dropped = false)) ∧ s.sendStep p env = s) := by
  have hclosed : s.conn.shared.isClosed = true := isClosed_of_disconnected h
  unfold sendStep
  cases hs : s.sending with
  | waiting =>
    cases hq : s.outgoing with
    | nil =>
      cases hdrop : s.dropped with
      | true => exact .inl Nat.one_pos
      | false => exact .inr ⟨.inr ⟨rfl, rfl, rfl⟩, rfl⟩
    | cons data rest =>
      dsimp only
      rw [if_pos hclosed]
      exact .inl Nat.one_pos
  | fragments splitId totalCount index chunks =>
    refine .inl ?_
    cases chunks with
    | nil => exact Nat.one_lt_two
    | cons chunk rest =>
      dsimp only
      cases sendFragment env splitId totalCount index chunk s.conn with
      | mk r c =>
        cases r with
        | ok u => exact Nat.lt_succ_self _
        | err e | panic => exact Nat.succ_pos _
  | ended => exact .inr ⟨.inl rfl, rfl⟩

/-- a step of the tick task is one of those it has left -/
theorem tickStep_stepsLeft (p : Profile) {s : Stream} (h : s.conn.shared.state = .disconnected) (envs : Nat → Env) :
    (s.tickStep p envs).ticking.stepsLeft < s.ticking.stepsLeft ∨ (s.ticking = .ended ∧ s.tickStep p envs = s) := by
  have hclosed : s.conn.shared.isClosed = true := isClosed_of_disconnected h
  unfold tickStep
  cases s.ticking with
  | waiting =>
    dsimp only
    rw [if_pos hclosed]
    exact .inl Nat.one_pos
  | timeout =>
    refine .inl ?_
    dsimp only
    split_ifs
    · exact Nat.succ_pos _
    · exact Nat.lt_succ_self _
  | flushAcks | flushNacks | retransmit | cleanup | keepalive => exact .inl (Nat.lt_succ_self _)
  | ended => exact .inr ⟨rfl, rfl⟩

/-! ## The state -/

theorem preserves_state_beginMessage (p : Profile) (env : Env) (data : Bytes) :
    Preserves (·.shared.state) (beginMessage p env data) := by
  refine (preserves_get _).bind fun _ => (preserves_lift _ _).bind fun _ => Preserves.ite ?_ ?_
  · exact (preserves_state (preserves_sendFrame env data none)).bind fun _ => preserves_pure _ _
  · refine Preserves.bind ?_ fun _ => preserves_pure _ _
    refine Preserves.bind (fun _ => rfl) fun _ => (preserves_get _).bind fun _ => (preserves_lift _ _).bind fun _ => ?_
    refine (preserves_lift _ _).bind fun _ => (preserves_lift _ _).bind fun _ => ?_
    exact Preserves.ite (preserves_lift _ _) (preserves_pure _ _)

theorem preserves_state_work (p : Profile) (envs : Nat → Env) (pingCounter : Nat) (place : TickPlace) :
    Preserves (·.shared.state) (work envs pingCounter place) := by
  have hother : ∀ op : Conn.Op, op.marks = false → (∀ envs packet, op ≠ .receive envs packet) →
      Preserves (·.shared.state) (op.act p) := by
    intro op hmarks hop c
    have hstate := (state_frameView_other p op hop).1 c
    rw [hmarks] at hstate
    exact hstate
  cases place with
  | waiting | timeout | ended => exact preserves_pure _ _
  | flushAcks => exact hother (.flushAcks (envs 0)) rfl fun _ _ => Conn.Op.noConfusion
  | flushNacks => exact hother (.flushNacks (envs 0)) rfl fun _ _ => Conn.Op.noConfusion
  | retransmit =>
    exact Preserves.ite (hother (.checkRetransmissions envs) rfl fun _ _ => Conn.Op.noConfusion) (preserves_pure _ _)
  | cleanup => exact Preserves.ite (hother (.cleanupExpired (envs 0)) rfl fun _ _ => Conn.Op.noConfusion) (preserves_pure _ _)
  | keepalive =>
    exact (preserves_get _).bind fun _ =>
      Preserves.ite (hother (.sendKeepalivePing (envs 0)) rfl fun _ _ => Conn.Op.noConfusion) (preserves_pure _ _)

theorem state_sendStep (p : Profile) (env : Env) (s : Stream) :
    (s.sendStep p env).conn.shared.state = s.conn.shared.state := by
  unfold sendStep
  cases s.sending with
  | waiting =>
    cases s.outgoing with
    | nil =>
      dsimp only
      split_ifs <;> rfl
    | cons data rest =>
      dsimp only
      split_ifs
      · rfl
      · have hstate := preserves_state_beginMessage p env data s.conn
        cases hr : beginMessage p env data s.conn with
        | mk r c =>
          rw [hr] at hstate
          cases r <;> exact hstate
  | fragments splitId totalCount index chunks =>
    cases chunks with
    | nil => rfl
    | cons chunk rest =>
      have hstate := preserves_state
        (preserves_sendFrame env chunk (some ⟨totalCount, splitId, UInt32.ofNat index⟩)) s.conn
      dsimp only
      unfold sendFragment
      cases hr : sendFrame env chunk (some ⟨totalCount, splitId, UInt32.ofNat index⟩) s.conn with
      | mk r c =>
        rw [hr] at hstate
        cases r <;> exact hstate
  | ended => rfl

/-- **Every step of a stream moves its connection along an edge.** -/
theorem edge_next (p : Profile) (s : Stream) (op : Op) :
    s.conn.shared.state.canTransitionTo (next p s op).conn.shared.state = true := by
  have hsession : ∀ op : Session.Op, (∀ env, op ≠ .beginClose env) → s.conn.shared.state.canTransitionTo
      (Session.step p s.closers.session op).conn.shared.state = true := by
    intro op hop
    have hedge := Closers.edge_step p s.closers (.session op)
    cases op with
    | beginClose env => exact absurd rfl (hop env)
    | _ => exact hedge
  have hself : ∀ t : Stream, t.conn.shared.state = s.conn.shared.state →
      s.conn.shared.state.canTransitionTo t.conn.shared.state = true := by
    intro t ht
    rw [ht]
    exact ConnectionState.canTransitionTo_self _
  cases op with
  | check => exact hsession .check fun _ => Session.Op.noConfusion
  | packet env packet => exact hsession (.recv env packet) fun _ => Session.Op.noConfusion
  | socketError => exact hsession .recvError fun _ => Session.Op.noConfusion
  | frame env => exact hsession (.frame env) fun _ => Session.Op.noConfusion
  | sendTask env => exact hself _ (state_sendStep p env s)
  | tickTask envs =>
    show s.conn.shared.state.canTransitionTo (s.tickStep p envs).conn.shared.state = true
    have hwork := fun place => preserves_state_work p envs s.pingCounter place s.conn
    unfold tickStep
    cases s.ticking with
    | waiting =>
      dsimp only
      split_ifs
      · exact hself _ rfl
      · cases p.add 32 s.pingCounter 1 <;> exact hself _ rfl
    | timeout =>
      dsimp only
      split_ifs
      · exact ConnectionState.canTransitionTo_disconnected _
      · exact hself _ rfl
    | flushAcks | flushNacks | retransmit | cleanup | keepalive => exact hself _ (hwork _)
    | ended => exact hself _ rfl
  | send data =>
    unfold next step
    dsimp only
    split_ifs
    · exact hself _ rfl
    · exact hself _ (congrArg (·.shared.state) (sendCall_conn s data))
  | recv =>
    unfold next step
    dsimp only
    split_ifs
    · exact hself _ rfl
    · exact hself _ (congrArg (·.shared.state) (recvCall_conn s))
  | close =>
    unfold next step
    dsimp only
    split_ifs
    · exact hself _ rfl
    · exact Closers.edge_step p s.closers .close
  | proceed i env =>
    unfold next step
    dsimp only
    split_ifs
    · exact hself _ rfl
    · exact Closers.edge_step p s.closers (.proceed i env)
  | drop => exact ConnectionState.canTransitionTo_disconnected _

theorem disconnected_next (p : Profile) {s : Stream} (h : s.conn.shared.state = .disconnected) (op : Op) :
    (next p s op).conn.shared.state = .disconnected := by
  have hedge := edge_next p s op
  rw [h] at hedge
  exact ConnectionState.eq_of_canTransitionTo_disconnected hedge

/-! ## All steps -/

/-- a call of `close` sends its notification, or leaves the connection as it is -/
theorem proceed_stepsLeft (p : Profile) {s : Closers} (h : s.session.conn.shared.state = .disconnected) (i : Nat) (env : Env) :
    (Closers.step p s (.proceed i env)).calls.countP Call.sending < s.calls.countP Call.sending ∨
      ((Closers.step p s (.proceed i env)).calls.countP Call.sending = s.calls.countP Call.sending ∧
        (Closers.step p s (.proceed i env)).session = s.session) := by
  unfold Closers.step
  dsimp only
  cases hcall : s.calls[i]? with
  | none => exact .inr ⟨rfl, rfl⟩
  | some call =>
    obtain ⟨hi, hget⟩ := List.getElem?_eq_some_iff.1 hcall
    have hcount : ∀ call', (s.calls.set i call').countP Call.sending = s.calls.countP Call.sending -
        (if call.sending = true then 1 else 0) + if call'.sending = true then 1 else 0 := by
      intro call'
      rw [List.countP_set hi, hget]
    have hmem : call ∈ s.calls := List.mem_of_getElem? hcall
    have hlower : call.sending = true → ∀ call' : Call, call'.sending = false →
        (s.calls.set i call').countP Call.sending < s.calls.countP Call.sending := by
      intro hsending call' hcall'
      have hpos : 0 < s.calls.countP Call.sending := List.countP_pos_iff.2 ⟨call, hmem, hsending⟩
      rw [hcount, if_pos hsending, hcall', if_neg Bool.noConfusion]
      omega
    dsimp only
    rcases call.proceed_cases env s.session.conn with ⟨hdone, he⟩ | ⟨hsending, -, he⟩ | ⟨hsending, _, -, he⟩ | ⟨hsending, he⟩
    · rw [he, ← hget, List.set_getElem_self]
      exact .inr ⟨rfl, rfl⟩
    · rw [he]
      refine .inl (hlower hsending _ ?_)
      simp [Call.sending]
    · rw [he]
      refine .inl (hlower hsending _ ?_)
      simp [Call.sending]
    · rw [he]
      refine .inr ⟨?_, ?_⟩
      · have hdone : Call.sending { call with result := some (.ok ()) } = false := by simp [Call.sending]
        rw [hcount, hsending, hdone, if_neg Bool.noConfusion]
        rfl
      · exact congrArg (fun c => ({ s.session with conn := c } : Session)) (markDisconnected_of_disconnected h)

/-- **A step on a disconnected connection** is one of those that are left, or it leaves the connection as it is. -/
theorem stepsLeft_next (p : Profile) {s : Stream} (h : s.conn.shared.state = .disconnected) (op : Op) :
    (next p s op).stepsLeft < s.stepsLeft ∨ ((next p s op).stepsLeft ≤ s.stepsLeft ∧ (next p s op).conn = s.conn) := by
  have hreceive : op.receives = true → (next p s op).sending = s.sending → (next p s op).ticking = s.ticking →
      (next p s op).closers.calls = s.closers.calls →
      (next p s op).stepsLeft < s.stepsLeft ∨ ((next p s op).stepsLeft ≤ s.stepsLeft ∧ (next p s op).conn = s.conn) := by
    intro hop hsending hticking hcalls
    cases hawaits : s.awaits op with
    | true =>
      have hlower := receive_stepsLeft p h hawaits
      refine .inl ?_
      unfold stepsLeft
      rw [hsending, hticking, hcalls]
      omega
    | false =>
      rw [(not_awaits p hawaits).2 hop]
      exact .inr ⟨Nat.le_refl _, rfl⟩
  cases op with
  | check => exact hreceive rfl rfl rfl rfl
  | packet env packet => exact hreceive rfl rfl rfl rfl
  | socketError => exact hreceive rfl rfl rfl rfl
  | frame env => exact hreceive rfl rfl rfl rfl
  | sendTask env =>
    show (s.sendStep p env).stepsLeft < _ ∨ _
    rcases sendStep_stepsLeft p h env with hlower | ⟨-, hsame⟩
    · have hphase := congrArg phase (sendTaskView_sendStep p env s)
      have hticking := congrArg ticking (sendTaskView_sendStep p env s)
      have hcalls := congrArg (fun t => t.closers.calls) (sendTaskView_sendStep p env s)
      have hphase' : (s.sendStep p env).phase = s.phase := hphase
      have hticking' : (s.sendStep p env).ticking = s.ticking := hticking
      have hcalls' : (s.sendStep p env).closers.calls = s.closers.calls := hcalls
      refine .inl ?_
      unfold stepsLeft
      rw [hphase', hticking', hcalls']
      omega
    · refine .inr ⟨(congrArg stepsLeft hsame).le, congrArg conn hsame⟩
  | tickTask envs =>
    show (s.tickStep p envs).stepsLeft < _ ∨ _
    rcases tickStep_stepsLeft p h envs with hlower | ⟨-, hsame⟩
    · have hphase := congrArg phase (tickTaskView_tickStep p envs s)
      have hsending := congrArg sending (tickTaskView_tickStep p envs s)
      have hcalls := congrArg (fun t => t.closers.calls) (tickTaskView_tickStep p envs s)
      have hphase' : (s.tickStep p envs).phase = s.phase := hphase
      have hsending' : (s.tickStep p envs).sending = s.sending := hsending
      have hcalls' : (s.tickStep p envs).closers.calls = s.closers.calls := hcalls
      refine .inl ?_
      unfold stepsLeft
      rw [hphase', hsending', hcalls']
      omega
    · refine .inr ⟨(congrArg stepsLeft hsame).le, congrArg conn hsame⟩
  | send data =>
    rcases send_cases p s data with ⟨-, he⟩ | ⟨-, -, he⟩ <;> rw [he] <;> exact .inr ⟨Nat.le_refl _, rfl⟩
  | recv =>
    rcases recv_cases p s with ⟨_, -, he⟩ | ⟨-, -, he⟩ | ⟨_, -, -, he⟩ <;> rw [next, he] <;> exact .inr ⟨Nat.le_refl _, rfl⟩
  | close =>
    unfold next step
    dsimp only
    split_ifs
    · exact .inr ⟨Nat.le_refl _, rfl⟩
    · have henter : Call.enter s.closers.session.conn = (⟨false, false, none⟩, s.closers.session.conn) :=
        enter_of_disconnected h
      refine .inr ⟨?_, ?_⟩
      · unfold stepsLeft Closers.step
        rw [henter]
        show _ + (s.closers.calls ++ [(⟨false, false, none⟩ : Call)]).countP Call.sending ≤ _
        rw [List.countP_append]
        exact Nat.le_refl _
      · show (Call.enter s.closers.session.conn).2 = s.conn
        rw [henter]
        rfl
  | proceed i env =>
    unfold next step
    dsimp only
    split_ifs
    · exact .inr ⟨Nat.le_refl _, rfl⟩
    · have hphase : (Closers.step p s.closers (.proceed i env)).session.phase = s.phase := by
        unfold Closers.step
        dsimp only
        cases s.closers.calls[i]? <;> rfl
      have hsteps : stepsLeft { s with closers := Closers.step p s.closers (.proceed i env) } =
          s.phase.stepsLeft + s.sending.stepsLeft + s.ticking.stepsLeft +
            (Closers.step p s.closers (.proceed i env)).calls.countP Call.sending := by
        rw [← hphase]
        rfl
      rw [hsteps]
      unfold stepsLeft
      rcases proceed_stepsLeft p h i env with hlower | ⟨hsame, hsession⟩
      · exact .inl (Nat.add_lt_add_left hlower _)
      · exact .inr ⟨Nat.add_le_add_left hsame.le _, congrArg Session.conn hsession⟩
  | drop => exact .inr ⟨Nat.add_le_add_left (Nat.zero_le _) _, markDisconnected_of_disconnected h⟩

/-! ## What does not begin any more -/

/-- the packet a step takes from the socket -/
def takes (s : Stream) : Op → List Bytes
  | .packet _ packet => if s.phase = .waiting then [packet] else []
  | _ => []

/-- the packets the receive task takes along a run -/
def packetsTaken (p : Profile) (s : Stream) (ops : List Op) : List Bytes := Machine.trace (next p) takes s ops

theorem settle_ne_waiting (env : Env) (len : Nat) (r : Result (Option Bytes) × Conn) :
    (Session.settle env len r).phase ≠ .waiting := by
  obtain ⟨res, c⟩ := r
  cases res with
  | ok rest => cases rest <;> exact Phase.noConfusion
  | err e => exact Phase.noConfusion
  | panic => exact Phase.noConfusion

/-- the receive task waits for a packet only if it did before, and no packet came -/
theorem waiting_next {p : Profile} {s : Stream} (h : s.conn.shared.state = .disconnected) {op : Op}
    (hwaiting : (next p s op).phase = .waiting) : s.phase = .waiting ∧ takes s op = [] := by
  have hclosed : s.closers.session.conn.shared.isClosed = true := isClosed_of_disconnected h
  cases op with
  | check =>
    refine ⟨?_, rfl⟩
    cases hph : s.closers.session.phase with
    | top =>
      simp only [next, step, phase, onSession, Session.step, hph, hclosed, if_true] at hwaiting
      cases hwaiting
    | _ =>
      have hsame : next p s .check = s := by simp only [next, step, onSession, Session.step, hph]
      rwa [hsame] at hwaiting
  | packet env packet =>
    cases hph : s.closers.session.phase with
    | waiting =>
      simp only [next, step, phase, onSession, Session.step, hph] at hwaiting
      exact absurd hwaiting (settle_ne_waiting _ _ _)
    | _ =>
      simp only [next, step, phase, onSession, Session.step, hph] at hwaiting
      cases hwaiting
  | socketError =>
    refine ⟨?_, rfl⟩
    cases hph : s.closers.session.phase with
    | waiting => exact hph
    | _ =>
      have hsame : next p s .socketError = s := by simp only [next, step, onSession, Session.step, hph]
      rwa [hsame] at hwaiting
  | frame env =>
    refine ⟨?_, rfl⟩
    cases hph : s.closers.session.phase with
    | frames len rest =>
      simp only [next, step, phase, onSession, Session.step, hph] at hwaiting
      exact absurd hwaiting (settle_ne_waiting _ _ _)
    | _ =>
      have hsame : next p s (.frame env) = s := by simp only [next, step, onSession, Session.step, hph]
      rwa [hsame] at hwaiting
  | sendTask | tickTask | send | recv | close | proceed | drop =>
    rw [phase_next Op.noConfusion (fun _ _ => Op.noConfusion) Op.noConfusion fun _ => Op.noConfusion] at hwaiting
    exact ⟨hwaiting, rfl⟩

theorem packetsTaken_disconnected (p : Profile) {s : Stream} (h : s.conn.shared.state = .disconnected) (ops : List Op) :
    (packetsTaken p s ops).length ≤ if s.phase = .waiting then 1 else 0 := by
  induction ops generalizing s with
  | nil => exact Nat.zero_le _
  | cons op ops ih =>
    have hrest := ih (disconnected_next p h op)
    rw [packetsTaken] at hrest ⊢
    rw [Machine.trace, List.length_append]
    by_cases hwaiting : (next p s op).phase = .waiting
    · obtain ⟨hbefore, hnone⟩ := waiting_next h hwaiting
      rw [if_pos hwaiting] at hrest
      rw [if_pos hbefore, hnone]
      simpa using hrest
    · rw [if_neg hwaiting] at hrest
      have hone : (takes s op).length ≤ if s.phase = .waiting then 1 else 0 := by
        unfold takes
        cases op with
        | packet env packet =>
          dsimp only
          split_ifs <;> exact Nat.le_refl _
        | _ => exact Nat.zero_le _
      omega

/-- no message is accepted -/
theorem sentMessages_disconnected (p : Profile) {s : Stream} (h : s.conn.shared.state = .disconnected) (ops : List Op) :
    sentMessages p s ops = [] := by
  induction ops generalizing s with
  | nil => rfl
  | cons op ops ih =>
    have hnone : sentMessage p s op = [] := by
      cases op with
      | send data =>
        have hrefused : s.conn.shared.isConnected = false := isConnected_of_disconnected h
        unfold sentMessage step sendCall
        rw [hrefused]
        dsimp only
        cases s.dropped <;> rfl
      | _ => rfl
    have hrest := ih (disconnected_next p h op)
    rw [sentMessages] at hrest ⊢
    rw [Machine.trace, hnone, hrest]
    rfl

/-- a step of the send task sends the next piece of the message it is in -/
theorem sendStep_parts (p : Profile) {s : Stream} (h : s.conn.shared.state = .disconnected) (env : Env) :
    (partsOut p s (.sendTask env) = [] ∧ (s.sendStep p env).sending.parts = []) ∨
      partsOut p s (.sendTask env) ++ (s.sendStep p env).sending.parts = s.sending.parts := by
  have hclosed : s.conn.shared.isClosed = true := isClosed_of_disconnected h
  cases hs : s.sending with
  | waiting =>
    cases hq : s.outgoing with
    | nil =>
      cases hdrop : s.dropped with
      | true =>
        have he : s.sendStep p env = s.endSending := by simp only [sendStep, hs, hq, hdrop, if_true]
        exact .inl ⟨partsOut_eq_nil (by rw [he]; rfl), by rw [he]; rfl⟩
      | false =>
        have he : s.sendStep p env = s := by simp only [sendStep, hs, hq, hdrop]; rfl
        exact .inl ⟨partsOut_eq_nil (by rw [he]), by rw [he, hs]; rfl⟩
    | cons data rest =>
      have he : s.sendStep p env = s.endSending := by simp only [sendStep, hs, hq, hclosed, if_true]
      exact .inl ⟨partsOut_eq_nil (by rw [he]; rfl), by rw [he]; rfl⟩
  | fragments splitId totalCount index chunks =>
    cases chunks with
    | nil =>
      have he : s.sendStep p env = { s with sending := .waiting } := by simp only [sendStep, hs]
      exact .inl ⟨partsOut_eq_nil (by rw [he]; rfl), by rw [he]; rfl⟩
    | cons chunk rest =>
      have hparts := sendFrame_parts env chunk (some ⟨totalCount, splitId, UInt32.ofNat index⟩) s.conn
      cases hr : sendFrame env chunk (some ⟨totalCount, splitId, UInt32.ofNat index⟩) s.conn with
      | mk r c =>
        rw [hr] at hparts
        rcases hparts with ⟨hok, hframes⟩ | ⟨hfail, hframes⟩
        · obtain rfl : r = .ok () := hok
          have he : s.sendStep p env = { s.onConn c with sending := .fragments splitId totalCount (index + 1) rest } := by
            simp only [sendStep, hs, sendFragment, hr]
          have hout : partsOut p s (.sendTask env) = [(chunk, some ⟨totalCount, splitId, UInt32.ofNat index⟩)] := by
            rw [partsOut, he]
            exact hframes
          refine .inr ?_
          rw [hout, he]
          rfl
        · have he : s.sendStep p env = (s.onConn c).endSending := by
            simp only [sendStep, hs, sendFragment, hr]
          exact .inl ⟨partsOut_eq_nil (by rw [he]; exact hframes), by rw [he]; rfl⟩
  | ended =>
    have he : s.sendStep p env = s := by simp only [sendStep, hs]
    exact .inl ⟨partsOut_eq_nil (by rw [he]), by rw [he, hs]; rfl⟩

/-- the send task sends no more than the rest of the message it is in -/
theorem partsSent_disconnected (p : Profile) {s : Stream} (h : s.conn.shared.state = .disconnected) (ops : List Op) :
    partsSent p s ops <+: s.sending.parts := by
  induction ops generalizing s with
  | nil => exact List.nil_prefix
  | cons op ops ih =>
    have hrest := ih (disconnected_next p h op)
    rw [partsSent] at hrest ⊢
    rw [Machine.trace]
    by_cases htask : ∃ env, op = .sendTask env
    · obtain ⟨env, rfl⟩ := htask
      rcases sendStep_parts p h env with ⟨hout, hnone⟩ | hsplit
      · have hlast : (next p s (.sendTask env)).sending.parts = [] := hnone
        rw [hlast] at hrest
        rw [hout, List.prefix_nil.1 hrest]
        exact List.nil_prefix
      · rw [← hsplit]
        exact List.prefix_append_right_inj _ |>.2 hrest
    · have hout : partsOut p s op = [] := by
        cases op with
        | sendTask env => exact absurd ⟨env, rfl⟩ htask
        | _ => rfl
      have hsame : (next p s op).sending = s.sending := by
        by_cases hsend : ∃ data, op = .send data
        · obtain ⟨data, rfl⟩ := hsend
          rcases send_cases p s data with ⟨-, he⟩ | ⟨-, -, he⟩
          · rw [he]
          · rw [he]
        · exact (sending_next p s (fun env he => htask ⟨env, he⟩) fun data he => hsend ⟨data, he⟩).1
      rw [hout, List.nil_append, ← hsame]
      exact hrest

/-! ## The end -/

open Classical in
/-- how many steps of a run change the connection -/
noncomputable def changes (p : Profile) (s : Stream) (ops : List Op) : Nat :=
  Machine.count (next p) (fun s op => (next p s op).conn ≠ s.conn) s ops

/-- what a run from a disconnected connection does -/
structure WindsDown (p : Profile) (s : Stream) (ops : List Op) : Prop where
  state : (run p s ops).conn.shared.state = .disconnected
  changes : changes p s ops + (run p s ops).stepsLeft ≤ s.stepsLeft
  accepted : sentMessages p s ops = []
  packets : (packetsTaken p s ops).length ≤ 1
  parts : partsSent p s ops <+: s.sending.parts

/-- **After the disconnection** the connection changes in a bounded number of steps, in every run: no message is accepted,
one packet at most is taken from the socket, and the send task transmits no more than the rest of the message it is in. -/
theorem wind_down (p : Profile) {s : Stream} (h : s.conn.shared.state = .disconnected) (ops : List Op) :
    WindsDown p s ops := by
  refine ⟨?_, ?_, sentMessages_disconnected p h ops, ?_, partsSent_disconnected p h ops⟩
  · exact Machine.run_inv (fun s op hs => disconnected_next p (s := s) hs op) h ops
  · classical
    refine Machine.count_add_le (fun s op hs => disconnected_next p (s := s) hs op) ?_ ?_ h ops
    · intro s op hs
      rcases stepsLeft_next p hs op with hlower | ⟨hle, -⟩
      · exact hlower.le
      · exact hle
    · intro s op hs hchange
      rcases stepsLeft_next p hs op with hlower | ⟨-, hsame⟩
      · exact hlower
      · exact absurd hsame hchange
  · refine (packetsTaken_disconnected p h ops).trans ?_
    split_ifs <;> omega

/-- is the operation a step of the send task -/
def Op.sends : Op → Bool
  | .sendTask _ => true
  | _ => false

/-- is the operation a step of the tick task -/
def Op.ticks : Op → Bool
  | .tickTask _ => true
  | _ => false

/-- only `Drop` drops the handle -/
theorem dropped_next (p : Profile) (s : Stream) {op : Op} (hop : op ≠ .drop) : (next p s op).dropped = s.dropped := by
  cases op with
  | check | packet | socketError | frame => rfl
  | sendTask env =>
    have hview := congrArg dropped (sendTaskView_sendStep p env s)
    exact hview
  | tickTask envs =>
    have hview := congrArg dropped (tickTaskView_tickStep p envs s)
    exact hview
  | send data => rcases send_cases p s data with ⟨-, he⟩ | ⟨-, -, he⟩ <;> rw [he]
  | recv => rcases recv_cases p s with ⟨_, -, he⟩ | ⟨-, -, he⟩ | ⟨_, -, -, he⟩ <;> rw [next, he]
  | close | proceed =>
    unfold next step
    dsimp only
    split_ifs <;> rfl
  | drop => exact absurd rfl hop

/-- only the tick task moves itself and counts its rounds -/
theorem ticking_next_of_ne (p : Profile) (s : Stream) {op : Op} (hop : ∀ envs, op ≠ .tickTask envs) :
    (next p s op).ticking = s.ticking ∧ (next p s op).pingCounter = s.pingCounter := by
  cases op with
  | tickTask envs => exact absurd rfl (hop envs)
  | sendTask env =>
    have hview := sendTaskView_sendStep p env s
    have hticking := congrArg ticking hview
    have hcounter := congrArg pingCounter hview
    exact ⟨hticking, hcounter⟩
  | check | packet | socketError | frame | drop => exact ⟨rfl, rfl⟩
  | send data => rcases send_cases p s data with ⟨-, he⟩ | ⟨-, -, he⟩ <;> rw [he] <;> exact ⟨rfl, rfl⟩
  | recv => rcases recv_cases p s with ⟨_, -, he⟩ | ⟨-, -, he⟩ | ⟨_, -, -, he⟩ <;> rw [next, he] <;> exact ⟨rfl, rfl⟩
  | close | proceed =>
    unfold next step
    dsimp only
    split_ifs <;> exact ⟨rfl, rfl⟩

/-- the tick task of a disconnected connection -/
theorem ticking_next (p : Profile) {s : Stream} (h : s.conn.shared.state = .disconnected) (op : Op) :
    (next p s op).ticking.stepsLeft ≤ s.ticking.stepsLeft ∧
      (op.ticks = true → (next p s op).ticking.stepsLeft ≤ s.ticking.stepsLeft - 1) := by
  by_cases htick : ∃ envs, op = .tickTask envs
  · obtain ⟨envs, rfl⟩ := htick
    show (s.tickStep p envs).ticking.stepsLeft ≤ _ ∧ (_ → (s.tickStep p envs).ticking.stepsLeft ≤ _)
    rcases tickStep_stepsLeft p h envs with hlower | ⟨hended, hsame⟩
    · exact ⟨hlower.le, fun _ => Nat.le_sub_one_of_lt hlower⟩
    · rw [hsame, hended]
      exact ⟨Nat.le_refl _, fun _ => Nat.le_refl _⟩
  · rw [(ticking_next_of_ne p s fun envs he => htick ⟨envs, he⟩).1]
    refine ⟨Nat.le_refl _, fun hticks => ?_⟩
    cases op with
    | tickTask envs => exact absurd ⟨envs, rfl⟩ htick
    | _ => cases hticks

/-- the send task of a dropped handle -/
theorem sends_next (p : Profile) {s : Stream} (h : s.conn.shared.state = .disconnected) (hdropped : s.dropped = true) (op : Op) :
    (next p s op).sending.stepsLeft ≤ s.sending.stepsLeft ∧
      (op.sends = true → (next p s op).sending.stepsLeft ≤ s.sending.stepsLeft - 1) := by
  have hkeep : (next p s op).sending = s.sending → op.sends = false → (next p s op).sending.stepsLeft ≤ s.sending.stepsLeft ∧
      (op.sends = true → (next p s op).sending.stepsLeft ≤ s.sending.stepsLeft - 1) := by
    intro hsame hno
    rw [hsame, hno]
    exact ⟨Nat.le_refl _, fun h => absurd h Bool.noConfusion⟩
  by_cases htask : ∃ env, op = .sendTask env
  · obtain ⟨env, rfl⟩ := htask
    show (s.sendStep p env).sending.stepsLeft ≤ _ ∧ (_ → (s.sendStep p env).sending.stepsLeft ≤ _)
    rcases sendStep_stepsLeft p h env with hlower | ⟨hended | ⟨-, -, hnot⟩, hsame⟩
    · exact ⟨hlower.le, fun _ => Nat.le_sub_one_of_lt hlower⟩
    · rw [hsame, hended]
      exact ⟨Nat.le_refl _, fun _ => Nat.le_refl _⟩
    · rw [hdropped] at hnot
      cases hnot
  · have hno : op.sends = false := by
      cases op with
      | sendTask env => exact absurd ⟨env, rfl⟩ htask
      | _ => rfl
    by_cases hsend : ∃ data, op = .send data
    · obtain ⟨data, rfl⟩ := hsend
      rcases send_cases p s data with ⟨-, he⟩ | ⟨-, -, he⟩ <;> exact hkeep (by rw [he]) hno
    · exact hkeep (sending_next p s (fun env he => htask ⟨env, he⟩) fun data he => hsend ⟨data, he⟩).1 hno

/-- the stream after `Drop` -/
structure Dropped (s : Stream) : Prop where
  state : s.conn.shared.state = .disconnected
  dropped : s.dropped = true

theorem Dropped.next {p : Profile} {s : Stream} (h : s.Dropped) (op : Op) : (next p s op).Dropped := by
  refine ⟨disconnected_next p h.state op, ?_⟩
  by_cases hop : op = .drop
  · rw [hop]
    rfl
  · rw [dropped_next p s hop]
    exact h.dropped

/-- **A dropped handle ends its tasks**: the tick task within seven steps, the send task within the steps its message takes.
The receive task ends within the steps its packet takes, or is left waiting for another one. -/
theorem tasks_end (p : Profile) (s : Stream) (ops : List Op) :
    (7 ≤ ops.countP Op.ticks → (run p s (.drop :: ops)).ticking = .ended) ∧
    (s.sending.stepsLeft ≤ ops.countP Op.sends → (run p s (.drop :: ops)).sending = .ended) ∧
    Machine.count (next p) (fun s op => s.awaits op = true) (next p s .drop) ops +
      (run p s (.drop :: ops)).phase.stepsLeft ≤ s.phase.stepsLeft := by
  have hdropped : (next p s .drop).Dropped := ⟨rfl, rfl⟩
  refine ⟨?_, ?_, ?_⟩
  · intro hticks
    have hrun := Machine.run_le_sub (P := Op.ticks) (m := fun s => s.ticking.stepsLeft)
      (fun s op (hs : s.Dropped) => hs.next (p := p) op)
      (fun s op hs => (ticking_next p hs.state op).1) (fun s op hs => (ticking_next p hs.state op).2) hdropped ops
    have hseven : s.ticking.stepsLeft ≤ 7 := by cases s.ticking <;> decide
    have hzero : (run p s (.drop :: ops)).ticking.stepsLeft = 0 := by
      have hle : (run p s (.drop :: ops)).ticking.stepsLeft ≤ s.ticking.stepsLeft - ops.countP Op.ticks := hrun
      omega
    cases hplace : (run p s (.drop :: ops)).ticking with
    | ended => rfl
    | _ =>
      rw [hplace] at hzero
      cases hzero
  · intro hsends
    have hrun := Machine.run_le_sub (P := Op.sends) (m := fun s => s.sending.stepsLeft)
      (fun s op (hs : s.Dropped) => hs.next (p := p) op)
      (fun s op hs => (sends_next p hs.state hs.dropped op).1)
      (fun s op hs => (sends_next p hs.state hs.dropped op).2) hdropped ops
    have hzero : (run p s (.drop :: ops)).sending.stepsLeft = 0 := by
      have hle : (run p s (.drop :: ops)).sending.stepsLeft ≤ s.sending.stepsLeft - ops.countP Op.sends := hrun
      omega
    cases hplace : (run p s (.drop :: ops)).sending with
    | ended => rfl
    | _ =>
      rw [hplace] at hzero
      cases hzero
  · refine Machine.count_add_le (m := fun s => s.phase.stepsLeft) (fun s op (hs : s.Dropped) => hs.next (p := p) op) ?_
      (fun s op hs hawaits => receive_stepsLeft p hs.state hawaits) hdropped ops
    intro s op hs
    cases hawaits : s.awaits op with
    | true => exact (receive_stepsLeft p hs.state hawaits).le
    | false => rw [(not_awaits p hawaits).1]

/-- a message accepted just before the handle goes -/
theorem wind_down_dropped :
    WindsDown .dev (run .dev (new 1492 0 true) (login ++ [.send [1, 2, 3], .drop])) [.sendTask quietEnv, .check] :=
  wind_down .dev (by decide +kernel) _

end Stream

end RakNet
