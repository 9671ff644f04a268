/-
What `advance_base` skips, in every state a receive window can reach.

When every bit of the window is set, `advance_base` asks `slide_to` for the number just past the window, and `slide_to` takes
it for a packet far ahead: the base stops n/2 numbers short of the end of the run, and the numbers in between, all received,
count as missing again. Only in a window of capacity 1 is n/2 nothing.

- `runLength_iff`: the length of the run of received numbers from the base on is what the scan counts.
- `Skips.of_stop`, `not_skips_of_full`: the partial slide and the reset.
- `advance_base_skips_iff`: exactly which states skip exactly the run.
-/
import RakNet.Reliability.Classify

namespace RakNet

open Lib

namespace RecvWindow

variable {n : Nat}

/-- the k numbers from the base on were received and the next one was not -/
structure RunLength (w : RecvWindow n) (k : Nat) : Prop where
  received : ∀ i < k, w.hasReceived ((w.baseSeq + i) % 2 ^ 24) = true
  stop : w.hasReceived ((w.baseSeq + k) % 2 ^ 24) = false

/-- `advance_base` skips k numbers and nothing else -/
structure Skips (w : RecvWindow n) (k : Nat) : Prop where
  base : w.advanceBase.baseSeq = (w.baseSeq + k) % 2 ^ 24
  kept : ∀ t < 2 ^ 24, k ≤ w.offset t → w.advanceBase.hasReceived t = w.hasReceived t
  fresh : w.advanceBase.hasReceived w.advanceBase.baseSeq = false
  again : w.advanceBase.advanceBase = w.advanceBase

/-- the base is a 24-bit number -/
theorem call_base_lt {w : RecvWindow n} (h1 : 1 ≤ n) (hn : n ≤ 2 ^ 23) (hb : w.baseSeq < 2 ^ 24) (c : Call) :
    (w.call c).baseSeq < 2 ^ 24 := by
  cases c with
  | markReceived seq =>
    rw [call]
    rcases markReceived_cases w seq h1 with ⟨-, he⟩ | ⟨-, -, he⟩ | ⟨-, _, -, he⟩ | ⟨-, _, -, he⟩ <;> rw [he]
    · exact hb
    · exact Nat.mod_lt _ (by norm_num)
    · exact hb
    · exact hb
  | advanceBase =>
    rw [call]
    rcases advanceBase_cases w hb hn with ⟨-, he⟩ | ⟨-, -, he⟩ | ⟨-, -, he⟩ <;> rw [he]
    · exact hb
    · exact Nat.mod_lt _ (by norm_num)
    · exact Nat.mod_lt _ (by norm_num)

theorem afterCalls_base_lt (h1 : 1 ≤ n) (hn : n ≤ 2 ^ 23) (calls : List Call) : (afterCalls n calls).baseSeq < 2 ^ 24 :=
  @Machine.run_inv (RecvWindow n) Call call (fun w => w.baseSeq < 2 ^ 24) (fun _ c h => call_base_lt h1 hn h c)
    (withCapacity n) (by simp [withCapacity]) calls

/-- the number i past the base -/
theorem offset_base_add (w : RecvWindow n) (hb : w.baseSeq < 2 ^ 24) {i : Nat} (hi : i < 2 ^ 24) :
    w.offset ((w.baseSeq + i) % 2 ^ 24) = i := by
  rw [offset_eq]
  omega

theorem hasReceived_base_add (w : RecvWindow n) (hb : w.baseSeq < 2 ^ 24) (hn : n ≤ 2 ^ 23) {i : Nat} (hi : i < n) :
    w.hasReceived ((w.baseSeq + i) % 2 ^ 24) = w.received[i] := by
  have hoff := w.offset_base_add hb (show i < 2 ^ 24 by omega)
  rw [hasReceived_of_offset w hn (by rw [hoff]; exact hi)]
  simp only [hoff]

theorem runLength_contiguous (w : RecvWindow n) (hb : w.baseSeq < 2 ^ 24) (hn : n ≤ 2 ^ 23) : w.RunLength w.contiguous := by
  have hle := w.contiguous_le
  constructor
  · intro i hi
    have hin : i < n := by omega
    rw [w.hasReceived_base_add hb hn hin]
    exact w.contiguous_bit hi hin
  · by_cases hstop : w.contiguous < n
    · rw [w.hasReceived_base_add hb hn hstop]
      exact w.contiguous_stop hstop
    · have hoff := w.offset_base_add hb (show w.contiguous < 2 ^ 24 by omega)
      exact w.hasReceived_of_past (by omega)

/-- the scan counts the run -/
theorem runLength_iff (w : RecvWindow n) (hb : w.baseSeq < 2 ^ 24) (hn : n ≤ 2 ^ 23) (k : Nat) :
    w.RunLength k ↔ k = w.contiguous := by
  have hrun := w.runLength_contiguous hb hn
  constructor
  · intro h
    rcases Nat.lt_trichotomy k w.contiguous with hlt | heq | hgt
    · have hset := hrun.received k hlt
      rw [h.stop] at hset
      cases hset
    · exact heq
    · have hset := h.received w.contiguous hgt
      rw [hrun.stop] at hset
      cases hset
  · rintro rfl
    exact hrun

theorem advanceBase_of_clear {w : RecvWindow n} (h0 : 0 < n) (hclear : w.received[0] = false) : w.advanceBase = w := by
  have hzero : ¬ 0 < w.contiguous := by
    intro hpos
    have hset := w.contiguous_bit hpos h0
    rw [hclear] at hset
    cases hset
  rw [advanceBase, if_neg hzero]

/-- the base is received exactly when its bit is set -/
theorem hasReceived_base (w : RecvWindow n) (hb : w.baseSeq < 2 ^ 24) (hn : n ≤ 2 ^ 23) (h0 : 0 < n) :
    w.hasReceived w.baseSeq = w.received[0] := by
  have hbase := w.hasReceived_base_add hb hn h0
  rwa [Nat.add_zero, Nat.mod_eq_of_lt hb] at hbase

/-- the bits after a slide by k -/
theorem hasReceived_slid {w v : RecvWindow n} {k : Nat} (hb : w.baseSeq < 2 ^ 24) (hn : n ≤ 2 ^ 23)
    (hbase : v.baseSeq = (w.baseSeq + k) % 2 ^ 24)
    (hbits : ∀ i (h : i < n), v.received[i] = if h' : i + k < n then w.received[i + k] else false) {t : Nat}
    (hle : k ≤ w.offset t) : v.hasReceived t = w.hasReceived t := by
  have hlt := w.offset_lt t
  have hoff : v.offset t = w.offset t - k := by
    rw [offset_eq] at hle hlt ⊢
    rw [hbase, offset_eq]
    omega
  by_cases hin : v.offset t < n
  · rw [hasReceived_of_offset v hn hin, hbits _ hin]
    by_cases hold : w.offset t < n
    · rw [hasReceived_of_offset w hn hold, dif_pos (by omega)]
      congr 1
      omega
    · rw [hasReceived_of_past w (by omega), dif_neg (by omega)]
  · rw [hasReceived_of_past v (by omega), hasReceived_of_past w (by omega)]

/-- a scan that stops inside the window skips what it counted -/
theorem Skips.of_stop {w : RecvWindow n} (hb : w.baseSeq < 2 ^ 24) (hn : n ≤ 2 ^ 23) (hstop : w.contiguous < n) :
    w.Skips w.contiguous := by
  have h0 : 0 < n := by omega
  obtain ⟨v, hadv, hbase, hbits⟩ : ∃ v, w.advanceBase = v ∧ v.baseSeq = (w.baseSeq + w.contiguous) % 2 ^ 24 ∧
      ∀ i (h : i < n), v.received[i] = if h' : i + w.contiguous < n then w.received[i + w.contiguous] else false := by
    rcases advanceBase_cases w hb hn with ⟨hzero, he⟩ | ⟨-, -, he⟩ | ⟨-, hfull, -⟩
    · refine ⟨w, he, ?_, ?_⟩
      · rw [hzero, Nat.add_zero, Nat.mod_eq_of_lt hb]
      · intro i hi
        simp only [hzero, Nat.add_zero, dif_pos hi]
    · refine ⟨_, he, rfl, ?_⟩
      intro i hi
      rw [Vector.getElem_ofFn]
    · omega
  have hvb : v.baseSeq < 2 ^ 24 := hbase ▸ Nat.mod_lt _ (by norm_num)
  have hclear : v.received[0] = false := by
    rw [hbits 0 h0, dif_pos (by omega)]
    simp only [Nat.zero_add]
    exact w.contiguous_stop hstop
  refine ⟨hadv ▸ hbase, ?_, ?_, ?_⟩ <;> rw [hadv]
  · intro t _ hle
    exact hasReceived_slid hb hn hbase hbits hle
  · rw [v.hasReceived_base hvb hn h0, hclear]
  · exact advanceBase_of_clear h0 hclear

/-- a full window of more than one number stops short -/
theorem not_skips_of_full {w : RecvWindow n} (hb : w.baseSeq < 2 ^ 24) (hn : n ≤ 2 ^ 23) (h2 : 2 ≤ n)
    (hfull : w.contiguous = n) : ¬ w.Skips w.contiguous := by
  intro hskips
  have hbase := hskips.base
  rcases advanceBase_cases w hb hn with ⟨hzero, -⟩ | ⟨-, hlt, -⟩ | ⟨-, -, he⟩
  · omega
  · omega
  · rw [he, hfull] at hbase
    dsimp only at hbase
    omega

/-- a full window of one number is cleared and moves by one -/
theorem Skips.of_one {w : RecvWindow n} (hb : w.baseSeq < 2 ^ 24) (h1 : n = 1) (hfull : w.contiguous = n) :
    w.Skips w.contiguous := by
  subst h1
  have hn : 1 ≤ 2 ^ 23 := by norm_num
  rcases advanceBase_cases w hb hn with ⟨hzero, -⟩ | ⟨-, hlt, -⟩ | ⟨-, -, he⟩
  · omega
  · omega
  · have hvb : w.advanceBase.baseSeq < 2 ^ 24 := by
      rw [he]
      exact Nat.mod_lt _ (by norm_num)
    have hclear : w.advanceBase.received[0] = false := by simp [he]
    have hbase : w.advanceBase.baseSeq = (w.baseSeq + w.contiguous) % 2 ^ 24 := by
      simp only [he, hfull]
      omega
    refine ⟨hbase, ?_, ?_, ?_⟩
    · intro t _ hle
      refine hasReceived_slid hb hn hbase ?_ hle
      intro i hi
      rw [he, dif_neg (by omega)]
      exact Vector.getElem_replicate hi
    · rw [hasReceived_base _ hvb hn (by norm_num), hclear]
    · exact advanceBase_of_clear (by norm_num) hclear

theorem contiguous_lt_iff (w : RecvWindow n) : w.contiguous < n ↔ ∃ i, ∃ h : i < n, w.received[i] = false := by
  constructor
  · exact fun hlt => ⟨w.contiguous, hlt, w.contiguous_stop hlt⟩
  · rintro ⟨i, hi, hclear⟩
    by_contra hge
    have hset := w.contiguous_bit (show i < w.contiguous by omega) hi
    rw [hclear] at hset
    cases hset

/-- **When `advance_base` skips exactly the received prefix.** For every capacity from 1 to 2^23 and every state reached by
`mark_received` and `advance_base`: the run of received numbers from the base on has one length k, and `advance_base` skips
exactly these k numbers if and only if some number of the window was not received, or the capacity is 1. -/
theorem advance_base_skips_iff (n : Nat) (h1 : 1 ≤ n) (hn : n ≤ 2 ^ 23) (calls : List Call) :
    ∃ k, (∀ j, (afterCalls n calls).RunLength j ↔ j = k) ∧
      ((afterCalls n calls).Skips k ↔ (∃ i, ∃ h : i < n, (afterCalls n calls).received[i] = false) ∨ n = 1) := by
  have hb := afterCalls_base_lt h1 hn calls
  refine ⟨(afterCalls n calls).contiguous, (afterCalls n calls).runLength_iff hb hn, ?_⟩
  rw [← contiguous_lt_iff]
  have hle := (afterCalls n calls).contiguous_le
  constructor
  · intro hskips
    by_contra hnot
    exact not_skips_of_full hb hn (by omega) (by omega) hskips
  · intro hcond
    by_cases hstop : (afterCalls n calls).contiguous < n
    · exact Skips.of_stop hb hn hstop
    · exact Skips.of_one hb (hcond.resolve_left hstop) (by omega)

/-- the packets 0 to 2 and 4 in a window of capacity 5 -/
theorem advance_base_skips_five :
    ∃ k, (∀ j, (afterCalls 5 [.markReceived 0, .markReceived 1, .markReceived 2, .markReceived 4]).RunLength j ↔ j = k) ∧
      (afterCalls 5 [.markReceived 0, .markReceived 1, .markReceived 2, .markReceived 4]).Skips k := by
  obtain ⟨k, hrun, hskips⟩ := advance_base_skips_iff 5 (by decide) (by decide)
    [.markReceived 0, .markReceived 1, .markReceived 2, .markReceived 4]
  exact ⟨k, hrun, hskips.2 (Or.inl ⟨3, by decide, by decide +kernel⟩)⟩

/-- **A full window stops halfway.** In a window of capacity 2 that received 0 and 1, the base moves to 1 and not to 2. -/
theorem full_window_stops_halfway :
    (afterCalls 2 [.markReceived 0, .markReceived 1]).RunLength 2 ∧
    (afterCalls 2 [.markReceived 0, .markReceived 1]).advanceBase.baseSeq = 1 ∧
    ¬ ∀ (n : Nat) (calls : List Call), 1 ≤ n → n ≤ 2 ^ 23 → ∀ k, (afterCalls n calls).RunLength k →
      (afterCalls n calls).Skips k := by
  have hrun : (afterCalls 2 [.markReceived 0, .markReceived 1]).RunLength 2 :=
    ⟨by decide +kernel, by decide +kernel⟩
  have hbase : (afterCalls 2 [.markReceived 0, .markReceived 1]).advanceBase.baseSeq = 1 := by decide +kernel
  refine ⟨hrun, hbase, ?_⟩
  intro hall
  have hbad := (hall 2 [.markReceived 0, .markReceived 1] (by decide) (by decide) 2 hrun).base
  rw [hbase] at hbad
  exact absurd hbad (by decide +kernel)

end RecvWindow

end RakNet
