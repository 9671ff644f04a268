/-
How a session ends, and how its login is reported.

The receive task owns the ready notifier: it fires it when a `NewIncomingConnection` comes in, whatever the state of the
connection is by then, and drops it when it returns or panics.

- `notifier_step`: the only steps that fire the notifier.
- `phase_cases`: where a step leaves the receive task.
- `EndedMarked.step`: a receive task that ends without a panic leaves a disconnected connection.
- `disconnected_step_iff`: the steps that end a connection.
- `EndReported.step`: the ends that the task waiting on `ready_rx` gets to know.
-/
import RakNet.Connection.Session

namespace RakNet

open Lib Lib.Wire

namespace Conn

open Action

/-- the frame is a `NewIncomingConnection` that is acted on -/
def completesLogin (s : ConnectionState) (f : Frame) : Bool := kindIn s f == .incoming && advanceOk f

theorem notifier_markReady (c : Conn) :
    notifierView (markReady c).2 = (false, c.notified + c.readyNotifier.toNat) := by
  rw [markReady, modifyShared, modify_bind, modify_apply]
  dsimp only
  cases hr : c.readyNotifier with
  | true => rfl
  | false => simp [notifierView]

/-- **The ready notifier after a frame.** -/
theorem notifier_handleFrame (p : Profile) (env : Env) (f : Frame) (c : Conn) :
    notifierView (handleFrame p env f c).2 =
      if completesLogin c.shared.state f then (false, c.notified + c.readyNotifier.toNat) else notifierView c := by
  have hadvance : Preserves notifierView (advanceChannel f) := (preserves_advanceChannel f).comp notifierView
  unfold completesLogin
  rw [handleFrame_eq, kind_eq]
  cases kindIn c.shared.state f with
  | empty | disconnect | echo => rfl
  | ping => exact preserves_notifier (preserves_handleConnectedPing env f.payload) c
  | pong => exact preserves_notifier (preserves_handleConnectedPong p env f.payload) c
  | request => exact (hadvance.bind fun _ => preserves_notifier (preserves_handleConnectionRequest env f.payload)) c
  | game => exact (preserves_handleGamePacket p env f).comp notifierView c
  | incoming =>
    have hsame : notifierView (advanceChannel f c).2 = notifierView c := hadvance c
    have hok := advanceChannel_isOk f c
    simp only [FrameKind.act, bind_apply]
    cases hr : advanceChannel f c with
    | mk r c' =>
      rw [hr] at hsame hok
      obtain ⟨hready, hnotified⟩ := Prod.mk.inj hsame
      cases r with
      | ok u =>
        rw [← hok, ← hready, ← hnotified]
        exact notifier_markReady c'
      | err e =>
        rw [← hok]
        exact hsame
      | panic =>
        rw [← hok]
        exact hsame

end Conn

namespace Session

open Conn Action

/-! ## The ready notifier -/

/-- the step handles a `NewIncomingConnection` -/
def completes (p : Profile) (s : Session) (op : Op) : Bool :=
  match frameOf p s op with
  | some f => completesLogin s.conn.shared.state f
  | none => false

/-- **The ready notifier after a step.** -/
theorem notifier_step (p : Profile) (s : Session) (op : Op) :
    notifierView (step p s op).conn =
      if completes p s op then (false, s.conn.notified + s.conn.readyNotifier.toNat) else notifierView s.conn := by
  unfold completes
  cases hf : frameOf p s op with
  | none => exact congrArg (·.1.2) (frameView_step_no_frame hf)
  | some f =>
    obtain ⟨env, len, x, b, rest, rfl, hph, hd⟩ := frameOf_eq_some hf
    have hsettle : notifierView (step p s (.frame env)).conn = notifierView (handleFrame p env f s.conn).2 := by
      rw [step_frame_eq hph, ← frameStep_conn hd]
      exact congrArg (·.1.2) (frameView_settle env len _)
    rw [hsettle, notifier_handleFrame]

/-- a login that is reported stays reported -/
theorem notified_step (p : Profile) {s : Session} (h : s.conn.notified ≠ 0) (op : Op) : (step p s op).conn.notified ≠ 0 := by
  have hview := congrArg Prod.snd (notifier_step p s op)
  have hafter : (step p s op).conn.notified = _ := hview
  rw [hafter]
  split_ifs
  · exact Nat.ne_of_gt (Nat.lt_of_lt_of_le (Nat.pos_of_ne_zero h) (Nat.le_add_right _ _))
  · exact h

/-! ## The end of the receive task -/

/-- the step is one of the receive task and panics -/
def panics (p : Profile) (s : Session) : Op → Bool
  | .recv env packet =>
    s.phase == .waiting && (beginPacket p env (packet.take recvBufferSize) s.conn).1.isPanic
  | .frame env =>
    match s.phase with
    | .frames _ rest => (frameStep p env rest s.conn).1.isPanic
    | _ => false
  | _ => false

/-- a receive task that has ended has marked its connection as disconnected -/
def EndedMarked (s : Session) : Prop := s.phase = .ended → s.conn.shared.state = .disconnected

/-- the step ends a connection that has not ended yet: a disconnect notification in a packet or a frame, a failed receive,
or a `mark_disconnected` of another task -/
def ends (p : Profile) (s : Session) (op : Op) : Bool :=
  match op with
  | .recv _ packet =>
    s.phase == .waiting && (packet.take recvBufferSize).head? == some idDisconnectNotification
  | .recvError => s.phase == .waiting
  | .frame _ =>
    match frameOf p s op with
    | some f => kindIn s.conn.shared.state f == .disconnect
    | none => false
  | .other op => op.marks
  | .check | .beginClose _ => false

/-- **Where a step leaves the receive task.** It stays where it is, and the step ends the connection only if it is one of
another task; or it comes from the check, out of `recv`, or through a round of the frame loop. -/
theorem phase_cases (p : Profile) (s : Session) (op : Op) :
    ((step p s op).phase = s.phase ∧ (ends p s op = true → ∃ o, op = .other o)) ∨
    (op = .check ∧ s.conn.shared.state = .disconnected ∧ (step p s op).phase = .ended) ∨
    (op = .check ∧ s.conn.shared.state ≠ .disconnected ∧ (step p s op).phase = .waiting) ∨
    (op = .recvError ∧ step p s op = finish s.conn) ∨
    ∃ env len r, step p s op = settle env len r ∧ (panics p s op = false → r.1.isPanic = false) := by
  have hstill : ∀ {op : Op}, step p s op = s → ends p s op = false →
      (step p s op).phase = s.phase ∧ (ends p s op = true → ∃ o, op = .other o) := by
    intro op hstep hends
    rw [hstep, hends]
    exact ⟨rfl, fun h => by cases h⟩
  cases op with
  | check =>
    cases hph : s.phase with
    | top =>
      right
      have hstep : step p s .check = if s.conn.shared.isClosed then finish s.conn else { s with phase := .waiting } := by
        simp only [step, hph]
      by_cases hdis : s.conn.shared.state = .disconnected
      · exact Or.inl ⟨rfl, hdis, by simp [hstep, SharedState.isClosed, ConnectionState.isClosed, hdis, finish]⟩
      · exact Or.inr (Or.inl ⟨rfl, hdis, by simp [hstep, SharedState.isClosed, ConnectionState.isClosed, hdis]⟩)
    | _ =>
      rw [← hph]
      exact Or.inl (hstill (by simp [step, hph]) rfl)
  | recv env packet =>
    cases hph : s.phase with
    | waiting =>
      refine Or.inr (Or.inr (Or.inr (Or.inr ⟨env, (packet.take recvBufferSize).length,
        beginPacket p env (packet.take recvBufferSize) s.conn, ?_, ?_⟩)))
      · simp only [step, hph]
      · simp [panics, hph]
    | _ =>
      rw [← hph]
      exact Or.inl (hstill (by simp [step, hph]) (by simp [ends, hph]))
  | recvError =>
    cases hph : s.phase with
    | waiting => exact Or.inr (Or.inr (Or.inr (Or.inl ⟨rfl, by simp only [step, hph]⟩)))
    | _ =>
      rw [← hph]
      exact Or.inl (hstill (by simp [step, hph]) (by simp [ends, hph]))
  | frame env =>
    cases hph : s.phase with
    | frames len rest =>
      refine Or.inr (Or.inr (Or.inr (Or.inr ⟨env, len, frameStep p env rest s.conn, step_frame_eq hph, ?_⟩)))
      simp [panics, hph]
    | _ =>
      rw [← hph]
      exact Or.inl (hstill (by simp [step, hph]) (by simp [ends, frameOf, hph]))
  | beginClose env => exact Or.inl ⟨rfl, fun h => by cases h⟩
  | other op =>
    refine Or.inl ⟨?_, fun _ => ⟨op, rfl⟩⟩
    cases op <;> rfl

theorem phase_settle (env : Env) (len : Nat) (r : Result (Option Bytes) × Conn) :
    (settle env len r).phase ≠ .waiting ∧ (r.1.isPanic = false → (settle env len r).phase ≠ .ended) := by
  obtain ⟨res, c⟩ := r
  cases res with
  | ok rest => cases rest <;> simp [settle]
  | err e => simp [settle]
  | panic => simp [settle, Outcome.isPanic]

/-- **The end of the receive task**: unless it panics, it marks the connection. -/
theorem EndedMarked.step {p : Profile} {s : Session} (h : EndedMarked s) {op : Op} (hop : panics p s op = false) :
    EndedMarked (step p s op) := by
  intro hend
  rcases phase_cases p s op with ⟨hsame, -⟩ | ⟨-, hdis, -⟩ | ⟨-, -, hwaiting⟩ | ⟨-, hfinish⟩ | ⟨env, len, r, hsettle, hr⟩
  · rw [hsame] at hend
    exact disconnected_step (h hend) op
  · exact disconnected_step hdis op
  · rw [hwaiting] at hend
    cases hend
  · rw [hfinish]
    rfl
  · rw [hsettle] at hend
    exact absurd hend ((phase_settle env len r).2 (hr hop))

/-! ## The end of the connection -/

/-- **Which steps end a connection.** -/
theorem disconnected_step_iff {p : Profile} {s : Session} (h : s.conn.shared.state ≠ .disconnected) (op : Op) :
    (step p s op).conn.shared.state = .disconnected ↔ ends p s op = true := by
  rw [state_step]
  unfold nextState ends
  cases op with
  | check => simpa using h
  | recv env packet => simp [h]
  | recvError => simp [h]
  | frame env =>
    dsimp only
    cases frameOf p s (.frame env) with
    | none => simpa using h
    | some f =>
      dsimp only
      unfold stateAfter
      cases kindIn s.conn.shared.state f with
      | disconnect => simp
      | incoming =>
        dsimp only
        rw [ConnectionState.transition_connected]
        split_ifs <;> simp [h]
      | _ => simpa using h
  | beginClose env =>
    cases hs : s.conn.shared.state with
    | disconnected => exact absurd hs h
    | _ => simp [ConnectionState.transition, ConnectionState.canTransitionTo]
  | other op => simp [h]

/-! ## Ends that are reported -/

/-- if the connection has ended, its login was not completed and its receive task is not in `recv`, where nothing would
wake it: the task goes on to its end, and the ready notifier with it -/
def EndReported (s : Session) : Prop :=
  s.conn.shared.state = .disconnected → s.conn.notified = 0 ∧ s.phase ≠ .waiting

/-- the step ends a connection whose login is complete, or completes the login of one that has ended; or another task ends
the connection while the receive task is in `recv` -/
def endsUnreported (p : Profile) (s : Session) (op : Op) : Bool :=
  match op with
  | .other op => op.marks && (s.conn.notified != 0 || s.phase == .waiting)
  | op => ends p s op && s.conn.notified != 0 || completes p s op && s.conn.shared.state == .disconnected

theorem completes_of_ends {p : Profile} {s : Session} {op : Op} (h : ends p s op = true) : completes p s op = false := by
  unfold ends at h
  unfold completes
  cases op with
  | frame env =>
    dsimp only at h
    cases hf : frameOf p s (.frame env) with
    | none => rfl
    | some f =>
      rw [hf] at h
      simp only [beq_iff_eq] at h
      simp [completesLogin, h]
  | _ => rfl

/-- what is excluded by a step that does not end unreported -/
theorem endsUnreported_eq_false {p : Profile} {s : Session} {op : Op} (h : endsUnreported p s op = false) :
    (ends p s op = true → s.conn.notified = 0) ∧
    (completes p s op = true → s.conn.shared.state ≠ .disconnected) ∧
    (∀ o, op = .other o → ends p s op = true → s.phase ≠ .waiting) := by
  unfold endsUnreported at h
  cases op with
  | other op =>
    have hcomp : completes p s (.other op) = false := rfl
    have hends : ends p s (.other op) = op.marks := rfl
    rw [hcomp, hends]
    cases hm : op.marks <;> simp_all
  | _ =>
    dsimp only at h
    simp only [Bool.or_eq_false_iff, Bool.and_eq_false_iff, bne_eq_false_iff_eq, beq_eq_false_iff_ne] at h
    refine ⟨fun he => h.1.resolve_left (by simp [he]), fun hc => h.2.resolve_left (by simp [hc]), ?_⟩
    intro o ho
    cases ho

/-- **The end of a connection is reported**, unless the step ends it unreported. -/
theorem EndReported.step {p : Profile} {s : Session} (h : EndReported s) {op : Op} (hop : endsUnreported p s op = false) :
    EndReported (step p s op) := by
  obtain ⟨hended, hcompleted, hother⟩ := endsUnreported_eq_false hop
  intro hdis
  have hbefore : s.conn.shared.state = .disconnected ∨ ends p s op = true := by
    by_cases hs : s.conn.shared.state = .disconnected
    · exact Or.inl hs
    · exact Or.inr ((disconnected_step_iff hs op).1 hdis)
  have hcomp : completes p s op = false := by
    rcases hbefore with hs | hends
    · exact Bool.eq_false_iff.2 fun hc => hcompleted hc hs
    · exact completes_of_ends hends
  have hnotified : (Session.step p s op).conn.notified = s.conn.notified := by
    have hview := notifier_step p s op
    rw [hcomp] at hview
    exact congrArg Prod.snd hview
  constructor
  · rw [hnotified]
    rcases hbefore with hs | hends
    · exact (h hs).1
    · exact hended hends
  · intro hw
    rcases phase_cases p s op with ⟨hsame, hends⟩ | ⟨-, -, hend⟩ | ⟨rfl, hopen, -⟩ | ⟨-, hfinish⟩ | ⟨env, len, r, hsettle, -⟩
    · rw [hsame] at hw
      rcases hbefore with hs | hends'
      · exact (h hs).2 hw
      · obtain ⟨o, ho⟩ := hends hends'
        exact hother o ho hends' hw
    · rw [hend] at hw
      cases hw
    · -- a check that finds the connection open does not end it
      rcases hbefore with hs | hends
      · exact hopen hs
      · cases hends
    · rw [hfinish] at hw
      cases hw
    · rw [hsettle] at hw
      exact (phase_settle env len r).1 hw

end Session

end RakNet
