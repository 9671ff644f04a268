/-
`highest()` after a run of arrivals.

The branch of `mark_received` for a number past the window replaces `highest_seq` only if it is before the new number,
also for the first packet, when it is the initial 0. 0 is before f in sequence order only for f from 1 to 2^23. A first
number above 2^23 leaves `highest_seq` at 0, which was never received. The branch for a number inside the window has an
exception for the first packet.

- `first_highest`: the highest number after the first packet, whatever its number.
- `highest_newest_iff`: the highest number is the newest accepted one in every state of a run exactly when the first number
  is at most 2^23.
-/
import RakNet.Protocol.Arithmetic
import RakNet.Reliability.RecvWindow

namespace RakNet

open Lib Lib.Serial

namespace RecvWindow

variable {n : Nat}

/-- fewer than 2^22 numbers apart, on either side -/
def Near (f seq : Nat) : Prop := ahead (2 ^ 24) f seq < 2 ^ 22 ∨ ahead (2 ^ 24) seq f < 2 ^ 22

instance (f seq : Nat) : Decidable (Near f seq) := inferInstanceAs (Decidable (_ ∨ _))

/-- the number 2^22 before this one -/
def origin (f : Nat) : Nat := (f + (2 ^ 24 - 2 ^ 22)) % 2 ^ 24

theorem Near.self (f : Nat) : Near f f := Or.inl (by rw [ahead_self]; norm_num)

/-- the numbers near f lie less than half the circle ahead of one origin -/
theorem Near.within {f seq : Nat} (h : Near f seq) : Within (2 ^ 24) (origin f) seq := by
  unfold Near ahead at h
  unfold Within ahead origin
  omega

theorem seqLessThan_zero_iff {f : Nat} (hf : f < 2 ^ 24) : seqLessThan 0 f = true ↔ f ≠ 0 ∧ f ≤ 2 ^ 23 := by
  rw [seqLessThan_iff]
  omega

namespace Track

/-- once a number was accepted, `highest()` is one of them, and none of them comes after it -/
def HighestNewest (t : Track n) : Prop :=
  t.accepted ≠ [] →
    t.window.highestSeq ∈ t.accepted ∧ ∀ a ∈ t.accepted, seqLessThan t.window.highestSeq a = false

/-- the first packet is accepted, and leaves its number as the highest one unless it is past the window and not after 0 -/
theorem first_highest (n : Nat) (h1 : 1 ≤ n) (f : Nat) : ∃ w : RecvWindow n, (init n).step f = ⟨w, [f]⟩ ∧
    w.totalReceived = 1 ∧
    w.highestSeq = if (withCapacity n).offset f < n then f else if seqLessThan 0 f then f else 0 := by
  have hstep : ((withCapacity n).markReceived f).1 = some true →
      (init n).step f = ⟨((withCapacity n).markReceived f).2, [f]⟩ := fun h => step_accepted (t := init n) h
  rcases markReceived_withCapacity h1 f with ⟨hpast, he⟩ | ⟨hin, he⟩
  · refine ⟨(withCapacity n).reset f (half_lt h1), ?_, rfl, ?_⟩
    · rw [hstep (by rw [he]), he]
    · rw [if_neg (by omega)]
      rfl
  · refine ⟨(withCapacity n).accept f hin, ?_, rfl, ?_⟩
    · rw [hstep (by rw [he]), he]
    · rw [if_pos hin]
      simp [accept, withCapacity]

/-- a later acceptance keeps the newer of the two numbers -/
theorem step_highest (t : Track n) (h1 : 1 ≤ n) (hsome : 0 < t.window.totalReceived) (seq : Nat) :
    (0 < (t.step seq).window.totalReceived) ∧
    (((t.step seq).accepted = t.accepted ∧ (t.step seq).window.highestSeq = t.window.highestSeq) ∨
      ((t.step seq).accepted = t.accepted ++ [seq] ∧
        (t.step seq).window.highestSeq = if seqLessThan t.window.highestSeq seq then seq else t.window.highestSeq)) := by
  rcases markReceived_cases t.window seq h1 with ⟨-, he⟩ | ⟨-, -, he⟩ | ⟨-, _, -, he⟩ | ⟨-, hin, -, he⟩ <;>
    simp only [step, he, if_true, if_false, reduceCtorEq, Option.some.injEq, Bool.false_eq_true]
  · exact ⟨hsome, Or.inl ⟨trivial, trivial⟩⟩
  · exact ⟨Nat.succ_pos _, Or.inr ⟨trivial, rfl⟩⟩
  · exact ⟨hsome, Or.inl ⟨trivial, trivial⟩⟩
  · refine ⟨Nat.succ_pos _, Or.inr ⟨trivial, ?_⟩⟩
    have hlater : (t.window.totalReceived + 1 == 1) = false := by
      rw [beq_eq_false_iff_ne]
      omega
    simp only [accept, hlater, Bool.or_false]

/-- the accepted numbers lie within half the circle ahead of `o`, and the highest number is the newest of them -/
structure Ordered (o : Nat) (t : Track n) : Prop where
  within : ∀ a ∈ t.accepted, a < 2 ^ 24 ∧ Within (2 ^ 24) o a
  newest : Newest (2 ^ 24) t.accepted t.window.highestSeq
  some : 0 < t.window.totalReceived

theorem Ordered.highestNewest {o : Nat} {t : Track n} (h : t.Ordered o) : t.HighestNewest := by
  intro _
  refine ⟨h.newest.mem, ?_⟩
  intro a ha
  rw [← Bool.not_eq_true, seqLessThan_iff_before (h.within a ha).1]
  exact h.newest.last a ha

theorem step_ordered {o : Nat} {t : Track n} (h1 : 1 ≤ n) (h : t.Ordered o) {seq : Nat}
    (hs : seq < 2 ^ 24 ∧ Within (2 ^ 24) o seq) : (t.step seq).Ordered o := by
  obtain ⟨hpos, ⟨hacc, hhigh⟩ | ⟨hacc, hhigh⟩⟩ := step_highest t h1 h.some seq
  · exact ⟨hacc ▸ h.within, by rw [hacc, hhigh]; exact h.newest, hpos⟩
  · refine ⟨?_, ?_, hpos⟩
    · intro a ha
      rw [hacc] at ha
      rcases List.mem_append.1 ha with ha | ha
      · exact h.within a ha
      · rw [List.mem_singleton.1 ha]
        exact hs
    · have hnewest := h.newest.snoc (fun a ha => (h.within a ha).2) hs.2
      simp only [← seqLessThan_iff_before hs.1] at hnewest
      rw [hacc, hhigh]
      exact hnewest

/-- the state after the first packet, where its number is the highest one -/
theorem ordered_first {f : Nat} (hf : f < 2 ^ 24) {w : RecvWindow n} (hcount : w.totalReceived = 1)
    (hhigh : w.highestSeq = f) : (⟨w, [f]⟩ : Track n).Ordered (origin f) := by
  refine ⟨?_, ?_, ?_⟩
  · intro a ha
    rw [List.mem_singleton.1 ha]
    exact ⟨hf, (Near.self f).within⟩
  · rw [hhigh]
    exact newest_singleton (by norm_num) f
  · show 0 < w.totalReceived
    omega

theorem run_ordered (h1 : 1 ≤ n) {f : Nat} {t : Track n} (h : t.Ordered (origin f)) {seqs : List Nat}
    (hseqs : ∀ s ∈ seqs, s < 2 ^ 24 ∧ Near f s) : (Machine.run step t seqs).Ordered (origin f) :=
  @Machine.run_inv_of_mem (Track n) Nat step (fun s => s < 2 ^ 24 ∧ Near f s) (Ordered (origin f))
    (fun _ _ ht hs => step_ordered h1 ht ⟨hs.1, hs.2.within⟩) t seqs h hseqs

/-- **The highest number is the newest accepted one exactly when the first number is at most 2^23**, in every state of a
run over a fresh window of capacity 2048 whose numbers are fewer than 2^22 from the first. -/
theorem highest_newest_iff (f : Nat) (rest : List Nat) (hf : f < 2 ^ 24) (hrest : ∀ s ∈ rest, s < 2 ^ 24 ∧ Near f s) :
    (∀ pre, pre <+: f :: rest → (Machine.run step (init 2048) pre).HighestNewest) ↔ f ≤ 2 ^ 23 := by
  obtain ⟨w, hstep, hcount, hhigh⟩ := first_highest 2048 (by norm_num) f
  have hless := seqLessThan_zero_iff hf
  rw [offset_withCapacity hf] at hhigh
  constructor
  · intro hall
    by_contra hlarge
    have hfirst := hall [f] ⟨rest, rfl⟩
    rw [Machine.run_cons, Machine.run_nil, hstep] at hfirst
    -- the highest number is still 0, and only f was accepted
    have hmem := (hfirst (List.cons_ne_nil f [])).1
    rw [hhigh, if_neg (by omega), if_neg (by rw [hless]; omega), List.mem_singleton] at hmem
    omega
  · intro hsmall pre hpre
    have hnew : w.highestSeq = f := by
      rw [hhigh]
      by_cases hin : f < 2048
      · rw [if_pos hin]
      · rw [if_neg hin, if_pos (hless.2 ⟨by omega, hsmall⟩)]
    cases pre with
    | nil => exact fun hne => absurd rfl hne
    | cons x pre =>
      obtain ⟨rfl, htail⟩ := List.cons_prefix_cons.1 hpre
      rw [Machine.run_cons, hstep]
      have hrun := run_ordered (by norm_num) (ordered_first hf hcount hnew) fun s hs => hrest s (htail.subset hs)
      exact hrun.highestNewest

/-- a run over the wrap from 5 down to 2^24 − 1 -/
theorem highest_newest_iff_wrap : (Machine.run step (init 2048) [5, 7, 0, 0xFFFFFF]).HighestNewest :=
  (highest_newest_iff 5 [7, 0, 0xFFFFFF] (by decide) (by decide)).2 (by decide) _ (List.prefix_refl _)

/-- **The highest number was never received.** A first number of 2^24 − 3 is accepted and leaves `highest()` at 0. -/
theorem highest_not_accepted :
    (Machine.run step (init 2048) [0xFFFFFD]).accepted = [0xFFFFFD] ∧
    (Machine.run step (init 2048) [0xFFFFFD]).window.highestSeq = 0 ∧
    ¬ ∀ (f : Nat) (rest : List Nat), f < 2 ^ 24 → (∀ s ∈ rest, s < 2 ^ 24 ∧ Near f s) →
      ∀ pre, pre <+: f :: rest → (Machine.run step (init 2048) pre).HighestNewest := by
  have hacc : (Machine.run step (init 2048) [0xFFFFFD]).accepted = [0xFFFFFD] := by decide +kernel
  have hhigh : (Machine.run step (init 2048) [0xFFFFFD]).window.highestSeq = 0 := by decide +kernel
  refine ⟨hacc, hhigh, ?_⟩
  intro hall
  have hbad := hall 0xFFFFFD [] (by decide) (by simp) [0xFFFFFD] (List.prefix_refl _)
  unfold HighestNewest at hbad
  rw [hacc, hhigh] at hbad
  exact absurd (hbad (by decide)).1 (by decide)

end Track

end RecvWindow

end RakNet
