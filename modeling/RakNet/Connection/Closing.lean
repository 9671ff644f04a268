/-
Delivery after the end of a connection.

`Disconnecting` and `Disconnected` are states in which `can_receive` is false, and nothing leads out of them. But
`handle_frame` never asks `can_receive`: a frame that is handled in such a state is handled like an early game packet of a
login, and delivered.

- `nothing_late_iff`: nothing is delivered after the end of a run exactly when every frame handled there is one that would
  not deliver anything anyway.
- `late_delivery`: a datagram with a disconnect notification and a game packet behind it.
-/
import RakNet.Connection.Session

namespace RakNet

open Lib Lib.Wire

namespace Session

open Conn

/-- once the state cannot receive, nothing more reaches the application -/
def NothingLate (p : Profile) (s : Session) (ops : List Op) : Prop :=
  ∀ a b, ops = a ++ b → (run p s a).conn.shared.state.canReceive = false →
    (run p s ops).conn.appData = (run p s a).conn.appData

/-- the step handles no frame in a state that cannot receive, or one that makes nothing ready -/
def Quiet (p : Profile) (s : Session) (op : Op) : Prop :=
  s.conn.shared.state.canReceive = false → ∀ f, frameOf p s op = some f →
    (heldView s.conn).releases p s.conn.shared.state f = false

/-- no step leads out of the states that cannot receive -/
theorem canReceive_step {p : Profile} {s : Session} (h : s.conn.shared.state.canReceive = false) (op : Op) :
    (step p s op).conn.shared.state.canReceive = false := by
  cases hf : frameOf p s op with
  | none =>
    rcases (step_no_frame hf).1 with hstay | hend
    · rw [hstay]
      exact h
    · exact hend
  | some f =>
    obtain ⟨env, -, hstate, -⟩ := step_frame hf
    rw [hstate]
    exact canReceive_stateAfter h f

/-- a connection that has ended stays ended, whatever comes in -/
theorem canReceive_run {p : Profile} {s : Session} (h : s.conn.shared.state.canReceive = false) (ops : List Op) :
    (run p s ops).conn.shared.state.canReceive = false :=
  @Machine.run_inv Session Op (step p) (fun s => s.conn.shared.state.canReceive = false)
    (fun _ op hs => canReceive_step hs op) s h ops

/-- a step after the end delivers nothing exactly when it is quiet -/
theorem appData_step_iff {p : Profile} {s : Session} (h : s.conn.shared.state.canReceive = false) (op : Op) :
    (step p s op).conn.appData = s.conn.appData ↔ Quiet p s op := by
  unfold Quiet
  cases hf : frameOf p s op with
  | none => exact iff_of_true (congrArg Prod.fst (step_no_frame hf).2) fun _ f hfr => by cases hfr
  | some f =>
    obtain ⟨env, -, -, hheld⟩ := step_frame hf
    have hiff := Held.appData_after_iff p env.now s.conn.shared.state (heldView s.conn) f
    rw [← hheld] at hiff
    refine hiff.trans ⟨fun hq _ g hg => ?_, fun hq => hq h f rfl⟩
    cases hg
    exact hq

/-- quiet steps after the end deliver nothing -/
theorem appData_run_of_quiet {p : Profile} {s : Session} (h : s.conn.shared.state.canReceive = false) {ops : List Op}
    (hops : Machine.Steps (step p) (Quiet p) s ops) : (run p s ops).conn.appData = s.conn.appData := by
  induction ops generalizing s with
  | nil => rfl
  | cons op ops ih =>
    calc (run p (step p s op) ops).conn.appData
        = (step p s op).conn.appData := ih (canReceive_step h op) hops.2
      _ = s.conn.appData := (appData_step_iff h op).2 hops.1

/-- **Nothing is delivered after the end**, in a run from any state, if and only if every frame the run handles in a state
that cannot receive is one that makes nothing ready. -/
theorem nothing_late_iff (p : Profile) (s : Session) (ops : List Op) :
    NothingLate p s ops ↔ Machine.Steps (step p) (Quiet p) s ops := by
  constructor
  · intro h
    induction ops generalizing s with
    | nil => trivial
    | cons op ops ih =>
      constructor
      · intro hend
        -- both the state before the step and the one after it have ended
        have hbefore := h [] (op :: ops) rfl hend
        have hafter := h [op] ops rfl (canReceive_step hend op)
        exact (appData_step_iff hend op).1 (hafter.symm.trans hbefore) hend
      · refine ih (step p s op) ?_
        rintro a b rfl hend
        exact h (op :: a) b rfl hend
  · rintro hops a b rfl hend
    obtain ⟨-, hb⟩ := Machine.steps_append.1 hops
    have hlate := appData_run_of_quiet hend hb
    unfold run at hlate ⊢
    rw [Machine.run_append]
    exact hlate

/-- a disconnect notification and a game packet, in one datagram -/
def goodbyeThenGame : Bytes :=
  encodeDatagram (U24.new 0) [(Frame.new .unreliable [0x15]).encode, (Frame.new .unreliable [0xfe]).encode]

/-- the receive task takes the datagram and the frame of the notification; the frame before it is made of the three bytes
of the datagram's number -/
def goodbye : List Op := [.check, .recv quietEnv goodbyeThenGame, .frame quietEnv, .frame quietEnv]

/-- **Delivered after the end.** The notification ends the connection, and the next frame of the same datagram is still
delivered. -/
theorem late_delivery :
    (run .dev (init 1500 0 true) goodbye).conn.shared.state = .disconnected ∧
    (run .dev (init 1500 0 true) goodbye).conn.appData = [] ∧
    (run .dev (init 1500 0 true) (goodbye ++ [.frame quietEnv])).conn.appData = [[0xfe]] ∧
    ¬ NothingLate .dev (init 1500 0 true) (goodbye ++ [.frame quietEnv]) := by
  refine ⟨by decide, by decide, by decide, ?_⟩
  intro h
  exact absurd (h goodbye [.frame quietEnv] rfl (by decide)) (by decide)

end Session

end RakNet
