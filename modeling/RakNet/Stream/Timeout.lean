/-
The receive timeout of a stream, over whole runs.

The tick task compares the clock with the end of the last packet the receive task was done with. Whatever that packet was
counts: a malformed one, a duplicate, one that is not for this stream at all.

- `timeout_exact`: exactly when a step of the tick task ends the connection.
- `silent_ends`: a peer that stays silent is given up within one round of the tick task.
-/
import RakNet.Stream.Traffic
import RakNet.Stream.Progress

namespace RakNet

open Lib Lib.Wire

/-- the steps from a place of the tick task to the end of its next timeout check -/
def TickPlace.toTimeout : TickPlace → Nat
  | .timeout => 1
  | .waiting => 2
  | .keepalive => 3
  | .cleanup => 4
  | .retransmit => 5
  | .flushNacks => 6
  | .flushAcks => 7
  | .ended => 0

namespace Stream

open Conn Action

/-- when the last of some packets was finished, if there is one -/
def lastHeard (received : List (Env × Nat)) (created : Nat) : Nat :=
  (received.getLast?.map fun packet => packet.1.unixMicros).getD created

/-- is the clock past the timeout: five seconds and two round trips since the last packet -/
def Overdue (rtt heard now : Nat) : Prop := 5000000 + rtt * 2 < now - heard

instance (rtt heard now : Nat) : Decidable (Overdue rtt heard now) := Nat.decLt _ _

/-- a step of the tick task ends the connection only at its timeout check -/
theorem disconnects_iff (p : Profile) {s : Stream} (h : s.conn.shared.state ≠ .disconnected) (envs : Nat → Env) :
    (next p s (.tickTask envs)).conn.shared.state = .disconnected ↔
      s.ticking = .timeout ∧
        Overdue s.conn.shared.metrics.rtt s.conn.shared.metrics.lastRecvTime (envs 0).unixMicros := by
  have hwork := fun place => preserves_state_work p envs s.pingCounter place s.conn
  have hother : s.ticking ≠ .timeout → (s.tickStep p envs).conn.shared.state = s.conn.shared.state := by
    intro hplace
    unfold tickStep
    cases hs : s.ticking with
    | waiting =>
      dsimp only
      split_ifs
      · rfl
      · cases p.add 32 s.pingCounter 1 <;> rfl
    | timeout => exact absurd hs hplace
    | flushAcks | flushNacks | retransmit | cleanup | keepalive => exact hwork _
    | ended => rfl
  show (s.tickStep p envs).conn.shared.state = .disconnected ↔ _
  by_cases hplace : s.ticking = .timeout
  · have hdecide : s.conn.shared.metrics.isTimedOut (envs 0).unixMicros = true ↔
        Overdue s.conn.shared.metrics.rtt s.conn.shared.metrics.lastRecvTime (envs 0).unixMicros := decide_eq_true_iff
    unfold tickStep
    rw [hplace]
    dsimp only
    split_ifs with htimeout
    · exact ⟨fun _ => ⟨rfl, hdecide.1 htimeout⟩, fun _ => rfl⟩
    · exact ⟨fun hstate => absurd hstate h, fun hboth => absurd (hdecide.2 hboth.2) htimeout⟩
  · rw [hother hplace]
    exact ⟨fun hstate => absurd hstate h, fun hboth => absurd hboth.1 hplace⟩

theorem lastRecvTime_run (p : Profile) (mtu : UInt16) (nowMicros : Nat) (ready : Bool) (ops : List Op) :
    (run p (new mtu nowMicros ready) ops).conn.shared.metrics.lastRecvTime =
      lastHeard (received p (new mtu nowMicros ready) ops) nowMicros :=
  (counters_exact p mtu nowMicros ready ops).lastRecvTime

/-- **When the tick task gives up.** In every state a fresh stream can reach while it is not disconnected, a step of the tick
task ends the connection exactly if it is the timeout check and the clock is more than five seconds and two round trips past
the moment in which the receive task was done with its last packet, or the stream was created. -/
theorem timeout_exact (p : Profile) (mtu : UInt16) (nowMicros : Nat) (ready : Bool) (ops : List Op) (envs : Nat → Env)
    (h : (run p (new mtu nowMicros ready) ops).conn.shared.state ≠ .disconnected) :
    (run p (new mtu nowMicros ready) (ops ++ [.tickTask envs])).conn.shared.state = .disconnected ↔
      (run p (new mtu nowMicros ready) ops).ticking = .timeout ∧
        Overdue (run p (new mtu nowMicros ready) ops).conn.shared.metrics.rtt
          (lastHeard (received p (new mtu nowMicros ready) ops) nowMicros) (envs 0).unixMicros := by
  have hsnoc : run p (new mtu nowMicros ready) (ops ++ [.tickTask envs]) =
      next p (run p (new mtu nowMicros ready) ops) (.tickTask envs) := Machine.run_snoc _ _ _ _
  rw [hsnoc, disconnects_iff p h envs, lastRecvTime_run]

/-- a timeout check ten seconds after the login -/
theorem timeout_exact_login :
    (run .dev (new 1492 0 true) ((login ++ [.tickTask fun _ => quietEnv]) ++
        [.tickTask fun _ => { quietEnv with unixMicros := 10000000 }])).conn.shared.state = .disconnected ↔
      (run .dev (new 1492 0 true) (login ++ [.tickTask fun _ => quietEnv])).ticking = .timeout ∧
        Overdue (run .dev (new 1492 0 true) (login ++ [.tickTask fun _ => quietEnv])).conn.shared.metrics.rtt
          (lastHeard (received .dev (new 1492 0 true) (login ++ [.tickTask fun _ => quietEnv])) 0) 10000000 :=
  timeout_exact .dev 1492 0 true _ _ (by decide +kernel)

/-! ## A silent peer -/

/-- no packet is finished, and the steps of the tick task find the clock past the timeout -/
structure Silent (p : Profile) (heard : Nat) (s : Stream) (op : Op) : Prop where
  silent : finished p s op = none
  late : ∀ envs, op = .tickTask envs → Overdue s.conn.shared.metrics.rtt heard (envs 0).unixMicros
  /-- the counter of the rounds does not overflow -/
  counter : ∀ envs, op = .tickTask envs → s.pingCounter + 1 < 2 ^ 32

/-- a stream that has heard nothing since, with its tick task at work unless the connection is disconnected -/
structure Waits (heard : Nat) (s : Stream) : Prop where
  heard : s.conn.shared.metrics.lastRecvTime = heard
  ticking : s.ticking = .ended → s.conn.shared.state = .disconnected

/-- the steps of the tick task until the connection is disconnected -/
def toGiveUp (s : Stream) : Nat := if s.conn.shared.state = .disconnected then 0 else s.ticking.toTimeout

/-- a step of the tick task past the timeout is one less to the end -/
theorem Waits.tickStep {p : Profile} {heard : Nat} {s : Stream} (h : s.Waits heard)
    (hstate : s.conn.shared.state ≠ .disconnected) {envs : Nat → Env}
    (hlate : Overdue s.conn.shared.metrics.rtt heard (envs 0).unixMicros) (hcounter : s.pingCounter + 1 < 2 ^ 32) :
    (s.tickStep p envs).conn.shared.state = .disconnected ∨
      ((s.tickStep p envs).ticking ≠ .ended ∧ (s.tickStep p envs).ticking.toTimeout = s.ticking.toTimeout - 1) := by
  have hopen : s.conn.shared.isClosed = false := by
    unfold SharedState.isClosed ConnectionState.isClosed
    simpa using hstate
  have hcases : s.ticking = .timeout ∨ s.ticking ≠ .timeout := Decidable.em _
  rcases hcases with hplace | hplace
  · have hends := (disconnects_iff p hstate envs).2 ⟨hplace, by rw [h.heard]; exact hlate⟩
    exact .inl hends
  · refine .inr ?_
    unfold Stream.tickStep
    cases hs : s.ticking with
    | waiting =>
      dsimp only
      rw [hopen, if_neg Bool.noConfusion, p.add_of_lt hcounter]
      exact ⟨TickPlace.noConfusion, rfl⟩
    | timeout => exact absurd hs hplace
    | flushAcks | flushNacks | retransmit | cleanup | keepalive => exact ⟨TickPlace.noConfusion, rfl⟩
    | ended => exact absurd (h.ticking hs) hstate

theorem Waits.next {p : Profile} {heard : Nat} {s : Stream} (h : s.Waits heard) {op : Op} (hop : Silent p heard s op) :
    (next p s op).Waits heard ∧ (next p s op).toGiveUp ≤ s.toGiveUp ∧
      (op.ticks = true → (next p s op).toGiveUp ≤ s.toGiveUp - 1) := by
  have hheard : (Stream.next p s op).conn.shared.metrics.lastRecvTime = heard := by
    have hcounters := recvCounters_next p s op
    rw [hop.silent] at hcounters
    exact (congrArg (·.2.2) hcounters).trans h.heard
  by_cases hstate : s.conn.shared.state = .disconnected
  · have hnext := disconnected_next p hstate op
    refine ⟨⟨hheard, fun _ => hnext⟩, ?_, fun _ => ?_⟩ <;> rw [toGiveUp, if_pos hnext] <;> exact Nat.zero_le _
  have hbefore : s.toGiveUp = s.ticking.toTimeout := if_neg hstate
  by_cases htick : ∃ envs, op = .tickTask envs
  · obtain ⟨envs, rfl⟩ := htick
    rcases h.tickStep (p := p) hstate (hop.late envs rfl) (hop.counter envs rfl) with hends | ⟨hgoes, hless⟩
    · have hzero : (Stream.next p s (.tickTask envs)).toGiveUp = 0 := if_pos hends
      rw [hzero]
      exact ⟨⟨hheard, fun _ => hends⟩, Nat.zero_le _, fun _ => Nat.zero_le _⟩
    · have hle : (Stream.next p s (.tickTask envs)).toGiveUp ≤ s.ticking.toTimeout - 1 := by
        rw [toGiveUp]
        split_ifs
        · exact Nat.zero_le _
        · exact hless.le
      rw [hbefore]
      exact ⟨⟨hheard, fun he => absurd he hgoes⟩, hle.trans (Nat.sub_le _ _), fun _ => hle⟩
  · have hticking := (ticking_next_of_ne p s fun envs he => htick ⟨envs, he⟩).1
    have hno : op.ticks = false := by
      cases op with
      | tickTask envs => exact absurd ⟨envs, rfl⟩ htick
      | _ => rfl
    refine ⟨⟨hheard, ?_⟩, ?_, fun hticks => absurd (hno.symm.trans hticks) Bool.noConfusion⟩
    · intro hended
      rw [hticking] at hended
      exact disconnected_next p (h.ticking hended) op
    · rw [hbefore, toGiveUp, hticking]
      split_ifs
      · exact Nat.zero_le _
      · exact Nat.le_refl _

/-- **A silent peer is given up.** However a stream was used before, with its tick task still at work: if from then on the
receive task finishes no packet and the clock is past the timeout, seven steps of the tick task end the connection, whatever
the other tasks and the application do in between. -/
theorem silent_ends (p : Profile) (mtu : UInt16) (nowMicros : Nat) (ready : Bool) (before after : List Op)
    (hrunning : (run p (new mtu nowMicros ready) before).ticking ≠ .ended)
    (hafter : Machine.Steps (next p) (Silent p (lastHeard (received p (new mtu nowMicros ready) before) nowMicros))
      (run p (new mtu nowMicros ready) before) after)
    (hticks : 7 ≤ after.countP Op.ticks) :
    (run p (new mtu nowMicros ready) (before ++ after)).conn.shared.state = .disconnected := by
  have hstart : (run p (new mtu nowMicros ready) before).Waits
      (lastHeard (received p (new mtu nowMicros ready) before) nowMicros) :=
    ⟨lastRecvTime_run p mtu nowMicros ready before, fun hended => absurd hended hrunning⟩
  have hwhole : run p (new mtu nowMicros ready) (before ++ after) =
      Machine.run (next p) (run p (new mtu nowMicros ready) before) after := Machine.run_append _ _ _ _
  have hend := Machine.run_inv_of_steps (fun s op (hs : s.Waits _) hop => (hs.next (p := p) hop).1) hstart hafter
  have hleft : (Machine.run (next p) (run p (new mtu nowMicros ready) before) after).toGiveUp ≤
      (run p (new mtu nowMicros ready) before).toGiveUp - after.countP Op.ticks :=
    Machine.run_le_sub_of_steps (fun s op (hs : s.Waits _) hop => (hs.next (p := p) hop).1)
      (fun s op hs hop => (hs.next hop).2.1) (fun s op hs hop => (hs.next hop).2.2) hstart hafter
  have hseven : (run p (new mtu nowMicros ready) before).toGiveUp ≤ 7 := by
    rw [toGiveUp]
    split_ifs
    · exact Nat.zero_le _
    · cases (run p (new mtu nowMicros ready) before).ticking <;> decide
  rw [hwhole]
  by_contra hstate
  have hzero : (Machine.run (next p) (run p (new mtu nowMicros ready) before) after).ticking.toTimeout = 0 := by
    rw [toGiveUp, if_neg hstate] at hleft
    omega
  cases hplace : (Machine.run (next p) (run p (new mtu nowMicros ready) before) after).ticking with
  | ended => exact hstate (hend.ticking hplace)
  | _ =>
    rw [hplace] at hzero
    cases hzero

/-- a peer that is silent after its login -/
theorem silent_ends_login :
    (run .dev (new 1492 0 true) (login ++
      List.replicate 7 (.tickTask fun _ => { quietEnv with unixMicros := 10000000 }))).conn.shared.state = .disconnected := by
  refine silent_ends .dev 1492 0 true login _ (by decide +kernel) ?_ (by decide +kernel)
  refine ⟨?_, ?_, ?_, ?_, ?_, ?_, ?_, trivial⟩ <;> refine ⟨rfl, ?_, ?_⟩ <;> rintro envs ⟨⟩ <;> decide +kernel

end Stream

end RakNet
