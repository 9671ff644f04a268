/-
The announcement of a connection to the listener.

`handle_frame` answers a `NewIncomingConnection` with `state.mark_connected()` and then fires the ready notifier, which puts
the stream into the accept queue. The two are separate steps, and the result of the first one is not looked at. Here the
notification is a step of its own: between the two the receive task is `owing` it, and whatever the other tasks do to the
connection happens first.

- `step_notify`: with nothing in between, the two steps are the frame of a session.
- `announced_once`: the notifier is fired at most once, in every run.
- `announced_connected`: it is fired in `Connected` alone, if the connection is not ended before the transition or between
  the two steps.
- `announced_after_disconnect`: a stream that was closed when it was announced.
-/
import RakNet.Connection.Ending

namespace RakNet

open Lib Lib.Wire

namespace Conn

/-- the second part of `markReady`: the notifier is taken and fired -/
def notify (c : Conn) : Conn :=
  if c.readyNotifier then { c with readyNotifier := false, notified := c.notified + 1 } else c

/-- `c'` with the notifier as it was in `c` -/
def withhold (c c' : Conn) : Conn := { c' with readyNotifier := c.readyNotifier, notified := c.notified }

/-- without its notification, `markReady` is `mark_connected` -/
theorem withhold_markReady (c : Conn) :
    withhold c (markReady c).2 = { c with shared := c.shared.markConnected.2 } := by
  rw [markReady, modifyShared, Action.modify_bind, Action.modify_apply]
  dsimp only
  split_ifs <;> rfl

/-- the notification that was withheld, made up for -/
theorem notify_withhold {c c' : Conn} (h : notifierView c' = (false, c.notified + c.readyNotifier.toNat)) :
    notify (withhold c c') = c' := by
  obtain ⟨hready, hnotified⟩ := Prod.mk.inj h
  unfold notify withhold
  dsimp only
  cases hr : c.readyNotifier with
  | true =>
    rw [hr] at hnotified
    rw [if_pos rfl, ← hready]
    exact congrArg (fun n => { c' with notified := n }) hnotified.symm
  | false =>
    rw [hr] at hnotified
    rw [if_neg (by decide), ← hready]
    exact congrArg (fun n => { c' with notified := n }) hnotified.symm

end Conn

open Conn

/-! ## Sessions with the notification apart -/

structure Announcing where
  session : Session
  /-- the receive task is between `mark_connected` and the notifier -/
  owing : Bool
  /-- the state of the connection at each notification -/
  announced : List ConnectionState

namespace Announcing

inductive Op where
  | session (op : Session.Op)
  | notify

/-- an operation of the receive task -/
def ofReceiveTask : Session.Op → Bool
  | .check | .recv _ _ | .recvError | .frame _ => true
  | .beginClose _ | .other _ => false

def step (p : Profile) (a : Announcing) : Op → Announcing
  | .session op =>
    if a.owing && ofReceiveTask op then a
    else if Session.completes p a.session op then
      { a with
        session := { Session.step p a.session op with
          conn := withhold a.session.conn (Session.step p a.session op).conn }
        owing := true }
    else { a with session := Session.step p a.session op }
  | .notify =>
    if a.owing then
      { session := { a.session with conn := a.session.conn.notify }
        owing := false
        announced :=
          if a.session.conn.readyNotifier then a.announced ++ [a.session.conn.shared.state] else a.announced }
    else a

def run (p : Profile) (a : Announcing) (ops : List Op) : Announcing := Machine.run (step p) a ops

/-- a fresh stream of the listener -/
def init (mtu : UInt16) (nowMicros : Nat) : Announcing := ⟨.init mtu nowMicros true, false, []⟩

theorem ofReceiveTask_of_completes {p : Profile} {s : Session} {op : Session.Op} (h : Session.completes p s op = true) :
    ofReceiveTask op = true := by
  cases op with
  | beginClose env | other op => cases h
  | _ => rfl

/-- **A frame and its notification**, with nothing in between, are the frame of a session. -/
theorem step_notify (p : Profile) {a : Announcing} (h : a.owing = false) (op : Session.Op) :
    (run p a [.session op, .notify]).session = Session.step p a.session op := by
  have hview := Session.notifier_step p a.session op
  simp only [run, Machine.run_cons, Machine.run_nil, step, h, Bool.false_and, Bool.false_eq_true, if_false]
  by_cases hc : Session.completes p a.session op = true
  · rw [if_pos hc] at hview ⊢
    dsimp only
    rw [if_pos rfl, notify_withhold hview]
  · rw [if_neg hc]
    dsimp only
    rw [if_neg (by decide)]

/-! ## At most one announcement -/

/-- a notifier that was fired is gone -/
def Once (a : Announcing) : Prop := a.announced.length + a.session.conn.readyNotifier.toNat ≤ 1

theorem readyNotifier_step {p : Profile} {s : Session} {op : Session.Op} (h : Session.completes p s op = false) :
    (Session.step p s op).conn.readyNotifier = s.conn.readyNotifier := by
  have hview := Session.notifier_step p s op
  rw [h] at hview
  exact congrArg Prod.fst hview

theorem Once.step {p : Profile} {a : Announcing} (h : a.Once) (op : Op) : (a.step p op).Once := by
  unfold Once at h ⊢
  cases op with
  | session op =>
    unfold Announcing.step
    dsimp only
    split_ifs with hblocked hcompletes
    · exact h
    · exact h
    · dsimp only
      rw [readyNotifier_step (by simpa using hcompletes)]
      exact h
  | notify =>
    unfold Announcing.step
    dsimp only
    split_ifs with howing hready
    · have hgone : a.session.conn.notify.readyNotifier = false := by
        unfold Conn.notify
        rw [if_pos hready]
      rw [hready] at h
      dsimp only
      rw [hgone, List.length_append]
      exact h
    · have hsame : a.session.conn.notify = a.session.conn := if_neg hready
      dsimp only
      rw [hsame]
      exact h
    · exact h

/-- **At most one announcement**, in every run. -/
theorem announced_once (p : Profile) (mtu : UInt16) (nowMicros : Nat) (ops : List Op) :
    (run p (init mtu nowMicros) ops).announced.length ≤ 1 := by
  have hinit : (init mtu nowMicros).Once := le_refl 1
  have h : (run p (init mtu nowMicros) ops).Once := Machine.run_inv (fun _ op ha => ha.step op) hinit ops
  exact le_trans (Nat.le_add_right _ _) h

/-! ## Announced while connected -/

/-- every announcement so far was made in `Connected`, and so will be the one that is owed -/
structure Truthful (a : Announcing) : Prop where
  announced : ∀ state ∈ a.announced, state = .connected
  owing : a.owing = true → a.session.conn.readyNotifier = true → a.session.conn.shared.state = .connected

/-- the operation of another task takes a connection out of `Connected` -/
def disconnects : Session.Op → Bool
  | .beginClose _ => true
  | .other op => op.marks
  | _ => false

/-- as long as the notifier is there: a `NewIncomingConnection` is handled while the connection is `Connecting`, and no
other task disconnects it while the notification is owed -/
def Undisturbed (p : Profile) (a : Announcing) : Op → Prop
  | .session op => a.session.conn.readyNotifier = true →
    (a.owing = false → Session.completes p a.session op = true → a.session.conn.shared.state = .connecting) ∧
    (a.owing = true → disconnects op = false)
  | .notify => True

instance decidableUndisturbed (p : Profile) (a : Announcing) : (op : Op) → Decidable (Undisturbed p a op)
  | .session op => inferInstanceAs (Decidable (a.session.conn.readyNotifier = true →
    (a.owing = false → Session.completes p a.session op = true → a.session.conn.shared.state = .connecting) ∧
    (a.owing = true → disconnects op = false)))
  | .notify => .isTrue trivial

/-- a login that is completed in `Connecting` leaves the connection `Connected` -/
theorem connected_of_completes {p : Profile} {s : Session} {op : Session.Op} (h : Session.completes p s op = true)
    (hs : s.conn.shared.state = .connecting) : (Session.step p s op).conn.shared.state = .connected := by
  unfold Session.completes at h
  cases hf : Session.frameOf p s op with
  | none =>
    rw [hf] at h
    cases h
  | some f =>
    obtain ⟨env, rfl, hstate, -⟩ := Session.step_frame hf
    rw [hf, hs] at h
    simp only [completesLogin, Bool.and_eq_true, beq_iff_eq] at h
    rw [hstate, hs, stateAfter, h.1, h.2]
    rfl

/-- an operation of another task that does not disconnect -/
theorem state_step_other {p : Profile} {s : Session} {op : Session.Op} (htask : ofReceiveTask op = false)
    (hop : disconnects op = false) : (Session.step p s op).conn.shared.state = s.conn.shared.state := by
  rw [Session.state_step]
  cases op with
  | other op =>
    have hmarks : op.marks = false := hop
    simp [Session.nextState, hmarks]
  | beginClose env => cases hop
  | _ => cases htask

theorem Truthful.step {p : Profile} {a : Announcing} (h : a.Truthful) {op : Op} (hop : Undisturbed p a op) :
    (a.step p op).Truthful := by
  cases op with
  | session op =>
    unfold Announcing.step
    dsimp only
    split_ifs with hblocked hcompletes
    · exact h
    · -- the login is completed now, so nothing was owed before
      have hnot : a.owing = false := by
        rw [ofReceiveTask_of_completes hcompletes, Bool.and_true] at hblocked
        exact Bool.eq_false_iff.2 hblocked
      exact ⟨h.announced, fun _ hready => connected_of_completes hcompletes ((hop hready).1 hnot hcompletes)⟩
    · refine ⟨h.announced, ?_⟩
      intro howing hready
      dsimp only at howing hready ⊢
      rw [readyNotifier_step (by simpa using hcompletes)] at hready
      have htask : ofReceiveTask op = false := by
        rw [howing, Bool.true_and] at hblocked
        exact Bool.eq_false_iff.2 hblocked
      rw [state_step_other htask ((hop hready).2 howing)]
      exact h.owing howing hready
  | notify =>
    unfold Announcing.step
    dsimp only
    split_ifs with howing hready
    · refine ⟨?_, fun hno => by cases hno⟩
      intro state hstate
      rcases List.mem_append.1 hstate with hold | hnew
      · exact h.announced state hold
      · rw [List.mem_singleton.1 hnew]
        exact h.owing howing hready
    · exact ⟨h.announced, fun hno => by cases hno⟩
    · exact h

/-- **Only connected streams are announced**, at most once, in every run in which the notifier meets a connection that is
not disturbed. -/
theorem announced_connected (p : Profile) (mtu : UInt16) (nowMicros : Nat) (ops : List Op)
    (h : Machine.Steps (step p) (Undisturbed p) (init mtu nowMicros) ops) :
    (run p (init mtu nowMicros) ops).announced.length ≤ 1 ∧
      ∀ state ∈ (run p (init mtu nowMicros) ops).announced, state = .connected := by
  have hinit : (init mtu nowMicros).Truthful := ⟨by simp [init], fun howing => by cases howing⟩
  have hrun : (run p (init mtu nowMicros) ops).Truthful :=
    Machine.run_inv_of_steps (fun _ _ ha hop => ha.step hop) hinit h
  exact ⟨announced_once p mtu nowMicros ops, hrun.announced⟩

/-- a `NewIncomingConnection` in a datagram of its own -/
def loginDatagram : Bytes := encodeDatagram (U24.new 0) [(Frame.new .unreliable [0x13]).encode]

/-- a disconnect notification and a `NewIncomingConnection`, in one datagram -/
def goodbyeThenLogin : Bytes :=
  encodeDatagram (U24.new 0) [(Frame.new .unreliable [0x15]).encode, (Frame.new .unreliable [0x13]).encode]

/-- the receive task takes a datagram and `n` frames of it, the first of which is made of the bytes of its number -/
def takeFrames (packet : Bytes) (n : Nat) : List Op :=
  [.session .check, .session (.recv quietEnv packet)] ++ List.replicate n (.session (.frame quietEnv)) ++ [.notify]

theorem announced_connected_login :
    (run .dev (init 1500 0) (takeFrames loginDatagram 2)).announced = [.connected] ∧
      ∀ state ∈ (run .dev (init 1500 0) (takeFrames loginDatagram 2)).announced, state = .connected :=
  ⟨by decide, (announced_connected .dev 1500 0 (takeFrames loginDatagram 2) (by decide)).2⟩

/-- **Announced after its end.** The notification ends the connection, and the next frame announces it. -/
theorem announced_after_disconnect :
    (run .dev (init 1500 0) (takeFrames goodbyeThenLogin 3)).announced = [.disconnected] ∧
      ¬ ∀ state ∈ (run .dev (init 1500 0) (takeFrames goodbyeThenLogin 3)).announced, state = .connected := by
  decide

end Announcing

end RakNet
