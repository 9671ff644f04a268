/-
The round-trip estimate over runs of samples (`update_rtt` of `src/state/metrics.rs`).

The estimate and its variance are weighted averages rounded down, so neither leaves the interval of its old value and the new
one. With samples below 2^61 the weighted sums then stay below 2^64 for ever.

- `updateRtt_of_lt`: one update from values below 2^61, as exact averages.
- `rtt_in_range`: every update of a run is one of these, and the estimate stays between the least and the greatest of 300 ms and
  all samples.
-/
import Mathlib.Tactic
import RakNet.Lib.Machine
import RakNet.State.Metrics

namespace RakNet

open Lib

/-! ## Averages -/

/-- the average of `k` times `a` and once `b`, rounded down -/
def average (k a b : Nat) : Nat := (a * k + b) / (k + 1)

theorem min_le_average (k a b : Nat) : min a b ≤ average k a b := by
  rw [average, Nat.le_div_iff_mul_le (Nat.succ_pos k)]
  calc min a b * (k + 1) = min a b * k + min a b := Nat.mul_succ _ _
    _ ≤ a * k + b := Nat.add_le_add (Nat.mul_le_mul_right k (min_le_left a b)) (min_le_right a b)

theorem average_le_max (k a b : Nat) : average k a b ≤ max a b := by
  rw [average]
  refine Nat.div_le_of_le_mul ?_
  calc a * k + b ≤ max a b * k + max a b :=
        Nat.add_le_add (Nat.mul_le_mul_right k (le_max_left a b)) (le_max_right a b)
    _ = (k + 1) * max a b := by ring

namespace ConnectionMetrics

/-- the metrics after an update, however it ended -/
def afterSample (p : Profile) (m : ConnectionMetrics) (sampleMicros : Nat) : ConnectionMetrics :=
  (updateRtt p sampleMicros m).2

/-- the distance of the sample from the estimate -/
def deviation (m : ConnectionMetrics) (sampleMicros : Nat) : Nat := ((sampleMicros : ℤ) - m.rtt).natAbs

theorem deviation_lt {m : ConnectionMetrics} {sampleMicros : Nat} (hrtt : m.rtt < 2 ^ 61) (hs : sampleMicros < 2 ^ 61) :
    m.deviation sampleMicros < 2 ^ 61 := by
  unfold deviation
  omega

theorem updateRtt_of_lt (p : Profile) {m : ConnectionMetrics} {sampleMicros : Nat} (hrtt : m.rtt < 2 ^ 61)
    (hvar : m.rttVar < 2 ^ 61) (hs : sampleMicros < 2 ^ 61) :
    updateRtt p sampleMicros m =
      (.ok (), { m with rtt := average 7 m.rtt sampleMicros, rttVar := average 3 m.rttVar (m.deviation sampleMicros) }) := by
  have hdiff : (if m.rtt < sampleMicros then sampleMicros - m.rtt else m.rtt - sampleMicros) = m.deviation sampleMicros := by
    unfold deviation
    split_ifs <;> omega
  have hdeviation := deviation_lt hrtt hs
  have hsum : m.rtt * 7 + sampleMicros < 2 ^ 64 := by omega
  have hsumVar : m.rttVar * 3 + m.deviation sampleMicros < 2 ^ 64 := by omega
  rw [updateRtt, Action.get_bind, p.mul_of_lt (Nat.lt_of_add_right_lt hsum), Action.lift_ok_bind, p.add_of_lt hsum,
    Action.lift_ok_bind, Action.modify_bind, hdiff, p.mul_of_lt (Nat.lt_of_add_right_lt hsumVar), Action.lift_ok_bind,
    p.add_of_lt hsumVar, Action.lift_ok_bind, Action.modify_apply]
  rfl

/-- one update of a run: nothing overflows, and neither value leaves the interval of its old value and the new one -/
structure Smooths (p : Profile) (m : ConnectionMetrics) (sampleMicros : Nat) : Prop where
  returns : (updateRtt p sampleMicros m).1 = .ok ()
  least : min m.rtt sampleMicros ≤ (m.afterSample p sampleMicros).rtt
  greatest : (m.afterSample p sampleMicros).rtt ≤ max m.rtt sampleMicros
  variance : (m.afterSample p sampleMicros).rttVar ≤ max m.rttVar (m.deviation sampleMicros)

/-- what keeps the weighted sums below 2^64 -/
structure Below (m : ConnectionMetrics) : Prop where
  rtt : m.rtt < 2 ^ 61
  rttVar : m.rttVar < 2 ^ 61

theorem smooths_of_below (p : Profile) {m : ConnectionMetrics} {sampleMicros : Nat} (h : m.Below)
    (hs : sampleMicros < 2 ^ 61) : m.Smooths p sampleMicros := by
  have hupdate := updateRtt_of_lt p h.rtt h.rttVar hs
  refine ⟨?_, ?_, ?_, ?_⟩
  · rw [hupdate]
  · rw [afterSample, hupdate]
    exact min_le_average 7 _ _
  · rw [afterSample, hupdate]
    exact average_le_max 7 _ _
  · rw [afterSample, hupdate]
    exact average_le_max 3 _ _

theorem Smooths.below {p : Profile} {m : ConnectionMetrics} {sampleMicros : Nat} (h : m.Smooths p sampleMicros)
    (hm : m.Below) (hs : sampleMicros < 2 ^ 61) : (m.afterSample p sampleMicros).Below where
  rtt := h.greatest.trans_lt (max_lt hm.rtt hs)
  rttVar := h.variance.trans_lt (max_lt hm.rttVar (deviation_lt hm.rtt hs))

/-- bounds of the estimate and of all samples stay bounds of the estimate -/
theorem Below.run (p : Profile) {lo hi : Nat} {samples : List Nat} (hs : ∀ s ∈ samples, s < 2 ^ 61)
    (hbounds : ∀ s ∈ samples, lo ≤ s ∧ s ≤ hi) {m : ConnectionMetrics} (h : m.Below) (hm : lo ≤ m.rtt ∧ m.rtt ≤ hi) :
    Machine.Steps (afterSample p) (Smooths p) m samples ∧
      lo ≤ (Machine.run (afterSample p) m samples).rtt ∧ (Machine.run (afterSample p) m samples).rtt ≤ hi := by
  induction samples generalizing m with
  | nil => exact ⟨trivial, hm⟩
  | cons s rest ih =>
    have hlt := hs s List.mem_cons_self
    obtain ⟨hlo, hhi⟩ := hbounds s List.mem_cons_self
    have hstep := smooths_of_below p h hlt
    have hnext : lo ≤ (m.afterSample p s).rtt ∧ (m.afterSample p s).rtt ≤ hi :=
      ⟨(le_min hm.1 hlo).trans hstep.least, hstep.greatest.trans (max_le hm.2 hhi)⟩
    obtain ⟨hsteps, hrest⟩ := ih (fun s' hs' => hs s' (List.mem_cons_of_mem s hs'))
      (fun s' hs' => hbounds s' (List.mem_cons_of_mem s hs')) (hstep.below h hlt) hnext
    exact ⟨⟨hstep, hsteps⟩, hrest⟩

/-- **The estimate stays in range.** In every run of updates of fresh metrics with samples below 2^61, no update overflows,
each leaves the estimate between its old value and the sample and the variance below its old value or the deviation, and the
estimate reached is between the least and the greatest of 300 ms and all samples. -/
theorem rtt_in_range (p : Profile) (nowMicros : Nat) (samples : List Nat) (hs : ∀ s ∈ samples, s < 2 ^ 61) :
    Machine.Steps (afterSample p) (Smooths p) (new nowMicros) samples ∧
      (300000 :: samples).min (List.cons_ne_nil _ _) ≤ (Machine.run (afterSample p) (new nowMicros) samples).rtt ∧
      (Machine.run (afterSample p) (new nowMicros) samples).rtt ≤ (300000 :: samples).max (List.cons_ne_nil _ _) := by
  refine Below.run p hs ?_ ?_ ?_
  · intro s hmem
    have hmem' : s ∈ 300000 :: samples := List.mem_cons_of_mem 300000 hmem
    exact ⟨List.min_le_of_mem hmem', List.le_max_of_mem hmem'⟩
  · exact ⟨show 300000 < 2 ^ 61 by decide, show 0 < 2 ^ 61 by decide⟩
  · exact ⟨List.min_le_of_mem List.mem_cons_self, List.le_max_of_mem List.mem_cons_self⟩

/-- the sample of `test_update_rtt`, no time at all, and the largest sample allowed -/
theorem rtt_in_range_three :
    (Machine.run (afterSample .dev) (new 0) [100000, 0, 2 ^ 61 - 1]).rtt ≤ 2 ^ 61 - 1 := by
  have h := (rtt_in_range .dev 0 [100000, 0, 2 ^ 61 - 1] (by decide)).2.2
  exact h

end ConnectionMetrics

end RakNet
