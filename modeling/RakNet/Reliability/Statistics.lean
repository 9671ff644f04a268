/-
The receive statistics after a run of `mark_received`.

`total_received` and `total_duplicates` count every answer. `total_out_of_order` is kept in one of the two accepting
branches only: a number past the window is never counted, in order or not. And the branch that does count compares with
`highest_seq + 1` in 32 bits, so that 0 after 2^24 - 1 counts as out of order.

- `step_exact_iff`: a call keeps the statistics exact exactly when it is `Counted`.
- `step_following`: along an in-order stream the highest number is the last one, once it was to begin with.
- `statistics_exact_iff`: exactly which runs have exact statistics, and which in-order streams count nothing.
-/
import RakNet.Reliability.RecvWindow

namespace RakNet

open Lib

/-- `RecvWindowStats` -/
structure RecvWindowStats where
  totalReceived : Nat
  totalDuplicates : Nat
  totalOutOfOrder : Nat
  baseSeq : Nat
  highestSeq : Nat
  windowSize : Nat
deriving DecidableEq

namespace RecvWindow

variable {n : Nat}

/-- `highest` -/
def highest (w : RecvWindow n) : Nat := w.highestSeq

/-- `stats` -/
def stats (w : RecvWindow n) : RecvWindowStats where
  totalReceived := w.totalReceived
  totalDuplicates := w.totalDuplicates
  totalOutOfOrder := w.totalOutOfOrder
  baseSeq := w.baseSeq
  highestSeq := w.highestSeq
  windowSize := n

/-- the 24-bit number after `seq` -/
def successor (seq : Nat) : Nat := (seq + 1) % 2 ^ 24

/-- a window with the counts of what its calls answered -/
structure Tally (n : Nat) where
  window : RecvWindow n
  accepted : Nat
  duplicates : Nat
  /-- numbers accepted, other than the first, that did not follow `highest()` -/
  outOfOrder : Nat

namespace Tally

def init (n : Nat) : Tally n := ⟨withCapacity n, 0, 0, 0⟩

/-- one call -/
def step (t : Tally n) (seq : Nat) : Tally n :=
  let (answer, window) := t.window.markReceived seq
  { window
    accepted := if answer = some true then t.accepted + 1 else t.accepted
    duplicates := if answer = some false then t.duplicates + 1 else t.duplicates
    outOfOrder :=
      if answer = some true ∧ 0 < t.accepted ∧ seq ≠ successor t.window.highest then t.outOfOrder + 1 else t.outOfOrder }

/-- a fresh window after these calls -/
def after (n : Nat) (seqs : List Nat) : Tally n := Machine.run step (init n) seqs

/-- `stats()` reports the counts -/
structure Exact (t : Tally n) : Prop where
  received : t.window.stats.totalReceived = t.accepted
  duplicates : t.window.stats.totalDuplicates = t.duplicates
  outOfOrder : t.window.stats.totalOutOfOrder = t.outOfOrder

/-- **The condition.** Of the numbers that are accepted after the first one, none inside the window is the 0 that follows
2^24 - 1, and those past the window follow the highest number. -/
def Counted (t : Tally n) (seq : Nat) : Prop :=
  t.window.tooOld seq = false → 0 < t.window.totalReceived →
    (∀ h : t.window.offset seq < n, t.window.received[t.window.offset seq] = false →
      ¬ (t.window.highest = 2 ^ 24 - 1 ∧ seq = 0)) ∧
    (n ≤ t.window.offset seq → seq = successor t.window.highest)

instance (t : Tally n) (seq : Nat) : Decidable (t.Counted seq) :=
  inferInstanceAs (Decidable (_ = false → 0 < _ →
    (∀ h : t.window.offset seq < n, t.window.received[t.window.offset seq] = false → ¬ _) ∧ (_ ≤ _ → _ = _)))

/-- every number follows the one before it -/
def InOrder (seqs : List Nat) : Prop := seqs.IsChain fun a b => b = successor a

theorem step_refused {t : Tally n} {seq : Nat} {answer : Option Bool} {v : RecvWindow n}
    (he : t.window.markReceived seq = (answer, v)) (hne : answer ≠ some true) :
    t.step seq = ⟨v, t.accepted, if answer = some false then t.duplicates + 1 else t.duplicates, t.outOfOrder⟩ := by
  simp only [step, he, hne, false_and, if_false]

theorem step_accepted {t : Tally n} {seq : Nat} {v : RecvWindow n} (he : t.window.markReceived seq = (some true, v)) :
    t.step seq = ⟨v, t.accepted + 1, t.duplicates,
      if 0 < t.accepted ∧ seq ≠ successor t.window.highest then t.outOfOrder + 1 else t.outOfOrder⟩ := by
  simp only [step, he, if_true, true_and, Option.some.injEq, Bool.true_eq_false, if_false]

/-! ## Exact statistics -/

/-- the statistics are exact, the highest number has 24 bits, and a window of no capacity has accepted nothing -/
structure Sound (t : Tally n) : Prop where
  exact : t.Exact
  highest_lt : t.window.highestSeq < 2 ^ 24
  empty : n = 0 → t.window.totalReceived = 0

theorem sound_init (n : Nat) : (init n).Sound where
  exact := ⟨rfl, rfl, rfl⟩
  highest_lt := by simp [init, withCapacity]
  empty := fun _ => rfl

/-- a window of no capacity refuses everything -/
theorem markReceived_zero (w : RecvWindow 0) (seq : Nat) : ∃ v, w.markReceived seq = (none, v) ∧
    v.totalReceived = w.totalReceived ∧ v.totalDuplicates = w.totalDuplicates ∧
    v.totalOutOfOrder = w.totalOutOfOrder ∧ v.highestSeq = w.highestSeq := by
  unfold markReceived
  by_cases hold : (seqLessThan seq w.baseSeq && decide (0 < w.totalReceived)) = true
  · rw [if_pos hold]
    exact ⟨w, rfl, rfl, rfl, rfl, rfl⟩
  · rw [if_neg hold, dif_neg (Nat.not_lt_zero _)]
    refine ⟨w.slideTo seq, dif_neg (Nat.not_lt_zero _), ?_⟩
    unfold slideTo
    dsimp only
    split_ifs <;> exact ⟨rfl, rfl, rfl, rfl⟩

/-- the code's successor test, on 24-bit numbers -/
theorem follows_iff {highest seq : Nat} (hh : highest < 2 ^ 24) (hs : seq < 2 ^ 24) :
    seq = wrappingAdd highest 1 ↔ seq = successor highest ∧ ¬ (highest = 2 ^ 24 - 1 ∧ seq = 0) := by
  rw [wrappingAdd, successor]
  omega

/-- two counters that agree go on to agree exactly when they count the same -/
theorem count_eq_iff {p q : Prop} [Decidable p] [Decidable q] {x : Nat} :
    ((if p then x + 1 else x) = if q then x + 1 else x) ↔ (p ↔ q) := by
  by_cases hp : p <;> by_cases hq : q <;> simp [hp, hq]

/-- a number that is not accepted: the counts of the answers stay exact -/
theorem exact_of_refused {t : Tally n} (h : t.Exact) {seq : Nat} {answer : Option Bool} {v : RecvWindow n}
    (he : t.window.markReceived seq = (answer, v)) (hne : answer ≠ some true)
    (hrec : v.totalReceived = t.window.totalReceived)
    (hdup : v.totalDuplicates = if answer = some false then t.window.totalDuplicates + 1 else t.window.totalDuplicates)
    (hooo : v.totalOutOfOrder = t.window.totalOutOfOrder) : (t.step seq).Exact := by
  obtain ⟨hr, hd, ho⟩ := h
  rw [step_refused he hne, ← hd]
  exact ⟨hrec.trans hr, hdup, hooo.trans ho⟩

/-- a number that is accepted: the counts stay exact if the code counts it as out of order when it is -/
theorem exact_iff_of_accepted {t : Tally n} (h : t.Exact) {seq : Nat} {v : RecvWindow n} {p : Prop} [Decidable p]
    (he : t.window.markReceived seq = (some true, v)) (hrec : v.totalReceived = t.window.totalReceived + 1)
    (hdup : v.totalDuplicates = t.window.totalDuplicates)
    (hooo : v.totalOutOfOrder = if p then t.window.totalOutOfOrder + 1 else t.window.totalOutOfOrder) :
    (t.step seq).Exact ↔ (p ↔ 0 < t.window.totalReceived ∧ seq ≠ successor t.window.highest) := by
  obtain ⟨hr, hd, ho⟩ := h
  simp only [stats] at hr hd ho
  have hcount : v.totalOutOfOrder = (if 0 < t.accepted ∧ seq ≠ successor t.window.highest then t.outOfOrder + 1
      else t.outOfOrder) ↔ (p ↔ 0 < t.window.totalReceived ∧ seq ≠ successor t.window.highest) := by
    rw [hooo, ho, count_eq_iff, hr]
  rw [step_accepted he, ← hcount]
  refine ⟨fun hexact => hexact.outOfOrder, fun hout => ⟨?_, ?_, hout⟩⟩
  · exact hrec.trans (by rw [hr])
  · exact hdup.trans hd

/-! ## The condition, branch by branch -/

theorem counted_of_tooOld {t : Tally n} {seq : Nat} (hold : t.window.tooOld seq = true) : t.Counted seq := by
  intro hnew
  rw [hold] at hnew
  cases hnew

theorem counted_of_received {t : Tally n} {seq : Nat} (hin : t.window.offset seq < n)
    (hbit : t.window.received[t.window.offset seq] = true) : t.Counted seq := by
  intro _ _
  refine ⟨fun _ hclear => ?_, fun hpast => absurd hin (Nat.not_lt.2 hpast)⟩
  rw [hbit] at hclear
  cases hclear

theorem counted_past_iff {t : Tally n} {seq : Nat} (hold : t.window.tooOld seq = false)
    (hpast : n ≤ t.window.offset seq) :
    t.Counted seq ↔ ¬ (0 < t.window.totalReceived ∧ seq ≠ successor t.window.highest) := by
  constructor
  · rintro hcounted ⟨hpos, hne⟩
    exact hne ((hcounted hold hpos).2 hpast)
  · intro hnone _ hpos
    refine ⟨fun hin => absurd hin (Nat.not_lt.2 hpast), fun _ => ?_⟩
    by_contra hne
    exact hnone ⟨hpos, hne⟩

theorem counted_inside_iff {t : Tally n} {seq : Nat} (hold : t.window.tooOld seq = false)
    (hin : t.window.offset seq < n) (hbit : t.window.received[t.window.offset seq] = false) :
    t.Counted seq ↔ (0 < t.window.totalReceived → ¬ (t.window.highest = 2 ^ 24 - 1 ∧ seq = 0)) := by
  constructor
  · exact fun hcounted hpos => (hcounted hold hpos).1 hin hbit
  · exact fun hzero _ hpos => ⟨fun _ _ => hzero hpos, fun hpast => absurd hin (Nat.not_lt.2 hpast)⟩

/-- inside the window the code counts the numbers that do not follow in 32 bits: one too many where 0 follows 2^24 - 1 -/
theorem codeCount_iff {highest received seq : Nat} (hh : highest < 2 ^ 24) (hs : seq < 2 ^ 24) :
    ((seq != wrappingAdd highest 1 && decide (1 < received + 1)) = true ↔ 0 < received ∧ seq ≠ successor highest) ↔
      (0 < received → ¬ (highest = 2 ^ 24 - 1 ∧ seq = 0)) := by
  have hcode : (seq != wrappingAdd highest 1 && decide (1 < received + 1)) = true ↔
      0 < received ∧ ¬ (seq = successor highest ∧ ¬ (highest = 2 ^ 24 - 1 ∧ seq = 0)) := by
    rw [← follows_iff hh hs, Bool.and_eq_true, bne_iff_ne, decide_eq_true_eq, and_comm]
    exact and_congr_left fun _ => Nat.lt_add_left_iff_pos
  have hwrap : highest = 2 ^ 24 - 1 ∧ seq = 0 → seq = successor highest := by
    rintro ⟨rfl, rfl⟩
    rfl
  rw [hcode]
  constructor
  · intro hcount hpos hzero
    exact (hcount.1 ⟨hpos, fun hfollows => hfollows.2 hzero⟩).2 (hwrap hzero)
  · intro hnone
    exact and_congr_right fun hpos => not_congr (and_iff_left (hnone hpos))

/-- **One call.** The statistics stay exact exactly when the call is `Counted`. -/
theorem step_exact_iff {t : Tally n} (h : t.Sound) {seq : Nat} (hs : seq < 2 ^ 24) :
    (t.step seq).Exact ↔ t.Counted seq := by
  rcases Nat.eq_zero_or_pos n with rfl | h1
  · obtain ⟨v, he, hr, hd, ho, -⟩ := markReceived_zero t.window seq
    have hnone := h.empty rfl
    refine iff_of_true (exact_of_refused h.exact he (by simp) hr (by simp [hd]) ho) ?_
    intro _ hpos
    omega
  rcases markReceived_cases t.window seq h1 with ⟨hold, he⟩ | ⟨hold, hpast, he⟩ | ⟨hold, hin, hbit, he⟩ |
    ⟨hold, hin, hbit, he⟩
  · -- too old
    exact iff_of_true (exact_of_refused h.exact he (by simp) rfl (by simp) rfl) (counted_of_tooOld hold)
  · -- past the window: the code counts nothing
    rw [exact_iff_of_accepted (p := False) h.exact he rfl rfl (if_neg id).symm, counted_past_iff hold hpast, false_iff]
  · -- a duplicate
    exact iff_of_true (exact_of_refused h.exact he (by simp) rfl (by simp) rfl) (counted_of_received hin hbit)
  · -- inside the window: the code tests for the successor in 32 bits
    rw [exact_iff_of_accepted h.exact he rfl rfl rfl, counted_inside_iff hold hin hbit]
    exact codeCount_iff h.highest_lt hs

theorem step_sound {t : Tally n} (h : t.Sound) {seq : Nat} (hs : seq < 2 ^ 24) (hcounted : t.Counted seq) :
    (t.step seq).Sound := by
  refine ⟨(step_exact_iff h hs).2 hcounted, ?_, ?_⟩
  · rcases Nat.eq_zero_or_pos n with rfl | h1
    · obtain ⟨v, he, -, -, -, hhigh⟩ := markReceived_zero t.window seq
      rw [step_refused he (by simp)]
      exact hhigh ▸ h.highest_lt
    have hnew : ∀ p : Prop, [Decidable p] → (if p then seq else t.window.highestSeq) < 2 ^ 24 := by
      intro p _
      split_ifs
      · exact hs
      · exact h.highest_lt
    rcases markReceived_cases t.window seq h1 with ⟨-, he⟩ | ⟨-, -, he⟩ | ⟨-, _, -, he⟩ | ⟨-, _, -, he⟩
    · rw [step_refused he (by simp)]
      exact h.highest_lt
    · rw [step_accepted he]
      exact hnew _
    · rw [step_refused he (by simp)]
      exact h.highest_lt
    · rw [step_accepted he]
      exact hnew _
  · rintro rfl
    obtain ⟨v, he, hr, -⟩ := markReceived_zero t.window seq
    rw [step_refused he (by simp)]
    exact hr.trans (h.empty rfl)

/-! ## In-order streams -/

/-- the last number of the stream is the highest one and was accepted, nothing after it was received, and nothing came out
of order -/
structure Following (t : Tally n) (last : Nat) : Prop where
  lt : last < 2 ^ 24
  highest : t.window.highest = last
  offset : t.window.offset last < n
  clear : ∀ i (h : i < n), t.window.offset last < i → t.window.received[i] = false
  outOfOrder : t.outOfOrder = 0

theorem seqLessThan_successor (seq : Nat) : seqLessThan seq (successor seq) = true := by
  rw [seqLessThan_iff, successor]
  omega

theorem offset_successor (w : RecvWindow n) (seq : Nat) (h : w.offset seq < 2 ^ 24 - 1) :
    w.offset (successor seq) = w.offset seq + 1 := by
  rw [offset_eq] at h ⊢
  rw [offset_eq, successor]
  omega

theorem offset_reset (w : RecvWindow n) (seq : Nat) (h : n / 2 < n) (hn : n < 2 ^ 24) :
    (w.reset seq h).offset seq = n / 2 := by
  rw [offset_eq, reset_baseSeq]
  omega

/-- less than half the range past the base is not too old -/
theorem tooOld_of_offset {w : RecvWindow n} {seq : Nat} (h : w.offset seq < 2 ^ 23) : w.tooOld seq = false := by
  have hless : seqLessThan seq w.baseSeq = false := by
    rw [← Bool.not_eq_true, seqLessThan_base_iff]
    omega
  rw [tooOld, hless, Bool.false_and]

theorem step_following {t : Tally n} {last : Nat} (h1 : 1 ≤ n) (hn : n < 2 ^ 23) (h : t.Following last) :
    (t.step (successor last)).Following (successor last) := by
  have hin := h.offset
  have hoff := offset_successor t.window last (by omega)
  have hlt : successor last < 2 ^ 24 := Nat.mod_lt _ (by norm_num)
  have hless : seqLessThan t.window.highestSeq (successor last) = true := by
    rw [show t.window.highestSeq = last from h.highest]
    exact seqLessThan_successor last
  have hfollows : ¬ (0 < t.accepted ∧ successor last ≠ successor t.window.highest) := by
    rw [h.highest]
    exact fun hc => hc.2 rfl
  rcases markReceived_cases t.window (successor last) h1 with ⟨hold, -⟩ | ⟨-, hpast, he⟩ | ⟨-, hin', hbit, -⟩ |
    ⟨-, hin', -, he⟩
  · rw [tooOld_of_offset (by omega)] at hold
    cases hold
  · -- past the window: the number is alone in the middle of the new one
    have hmid := offset_reset t.window (successor last) (half_lt h1) (by omega)
    rw [step_accepted he, if_neg hfollows]
    refine ⟨hlt, if_pos hless, hmid ▸ half_lt h1, ?_, h.outOfOrder⟩
    intro i hi hgt
    exact received_reset_of_ne _ _ _ hi (by dsimp only at hgt; omega)
  · rw [h.clear _ hin' (by omega)] at hbit
    cases hbit
  · -- inside the window: the bit after the last one
    rw [step_accepted he, if_neg hfollows]
    refine ⟨hlt, if_pos (by rw [hless]; rfl), hin', ?_, h.outOfOrder⟩
    intro i hi hgt
    have hgt' : t.window.offset (successor last) < i := hgt
    simp only [accept_received]
    rw [Vector.getElem_set_ne _ _ (by omega)]
    exact h.clear i hi (by omega)

theorem step_init {f : Nat} {v : RecvWindow n} (he : (withCapacity n).markReceived f = (some true, v)) :
    (init n).step f = ⟨v, 1, 0, 0⟩ := by
  rw [step_accepted (t := init n) he, if_neg (fun hc => Nat.lt_irrefl 0 hc.1)]
  rfl

/-- a stream that starts at most halfway -/
theorem first_following (h1 : 1 ≤ n) (hn : n < 2 ^ 23) {f : Nat} (hf : f ≤ 2 ^ 23) : ((init n).step f).Following f := by
  have hoff := offset_withCapacity (n := n) (show f < 2 ^ 24 by omega)
  rcases markReceived_withCapacity h1 f with ⟨hpast, he⟩ | ⟨hin, he⟩
  · have hless : seqLessThan (withCapacity n).highestSeq f = true := by
      rw [seqLessThan_iff]
      show 2 ^ 23 ≤ (0 + (2 ^ 32 - f)) % 2 ^ 24
      omega
    have hmid := offset_reset (withCapacity n) f (half_lt h1) (by omega)
    rw [step_init he]
    refine ⟨by omega, if_pos hless, hmid ▸ half_lt h1, ?_, rfl⟩
    intro i hi hgt
    exact received_reset_of_ne _ _ _ hi (by dsimp only at hgt; omega)
  · rw [step_init he]
    refine ⟨by omega, if_pos (by simp [withCapacity]), hin, ?_, rfl⟩
    intro i hi hgt
    have hgt' : (withCapacity n).offset f < i := hgt
    simp only [accept_received]
    rw [Vector.getElem_set_ne _ _ (by omega)]
    simp [withCapacity]

theorem run_following {t : Tally n} {last : Nat} (h1 : 1 ≤ n) (hn : n < 2 ^ 23) (h : t.Following last) (seqs : List Nat)
    (hseqs : InOrder (last :: seqs)) : (Machine.run step t seqs).outOfOrder = 0 := by
  induction seqs generalizing t last with
  | nil => exact h.outOfOrder
  | cons seq seqs ih =>
    obtain ⟨hnext, hrest⟩ := List.isChain_cons_cons.1 hseqs
    subst hnext
    exact ih (step_following h1 hn h) hrest

/-- a stream that starts above 2^23 leaves the highest number at 0, and its second number does not follow it -/
theorem second_outOfOrder (h1 : 1 ≤ n) (hn : n < 2 ^ 23) {f : Nat} (hf : f < 2 ^ 24) (hlarge : 2 ^ 23 < f) :
    (((init n).step f).step (successor f)).outOfOrder = 1 := by
  have hoff := offset_withCapacity (n := n) hf
  have hless : seqLessThan (withCapacity n).highestSeq f = false := by
    rw [← Bool.not_eq_true, seqLessThan_iff]
    show ¬ 2 ^ 23 ≤ (0 + (2 ^ 32 - f)) % 2 ^ 24
    omega
  obtain ⟨w, he, hhigh, hmid, hclear⟩ : ∃ w, (withCapacity n).markReceived f = (some true, w) ∧ w.highest = 0 ∧
      w.offset f = n / 2 ∧ ∀ i (h : i < n), i ≠ n / 2 → w.received[i] = false := by
    refine ⟨_, markReceived_reset h1 (tooOld_withCapacity f) (by omega), ?_, ?_, ?_⟩
    · exact if_neg (by rw [hless]; exact Bool.false_ne_true)
    · exact offset_reset (withCapacity n) f (half_lt h1) (by omega)
    · exact fun i hi hne => received_reset_of_ne _ _ _ hi hne
  rw [step_init he]
  have hsecond := offset_successor w f (by omega)
  have hnew : (w.markReceived (successor f)).1 = some true :=
    markReceived_of_clear h1 (tooOld_of_offset (by omega)) fun hin => hclear _ hin (by omega)
  obtain ⟨v, hv⟩ : ∃ v, w.markReceived (successor f) = (some true, v) := ⟨_, Prod.ext hnew rfl⟩
  have hne : successor f ≠ successor w.highest := by
    rw [hhigh, successor, successor]
    omega
  rw [step_accepted (t := ⟨w, 1, 0, 0⟩) hv, if_pos ⟨Nat.one_pos, hne⟩]

/-! ## Whole runs -/

theorem exact_iff_steps {t : Tally n} (h : t.Sound) {seqs : List Nat} (hs : ∀ s ∈ seqs, s < 2 ^ 24) :
    (∀ pre, pre <+: seqs → (Machine.run step t pre).Exact) ↔ Machine.Steps step Counted t seqs :=
  @Machine.prefixes_iff_steps (Tally n) Nat step (· < 2 ^ 24) Counted Sound Exact
    (fun _ _ hs h hc => step_sound h hs hc) (fun _ h => h.exact) (fun _ _ hs h hq => (step_exact_iff h hs).1 hq) t h seqs hs

/-- an in-order stream that is a single packet, or starts at most at 2^23, has nothing out of order in any state -/
theorem outOfOrder_after (h1 : 1 ≤ n) (hn : n < 2 ^ 23) {seqs : List Nat} (horder : InOrder seqs)
    (hshort : seqs.length ≤ 1 ∨ seqs.headD 0 ≤ 2 ^ 23) {pre : List Nat} (hpre : pre <+: seqs) :
    (after n pre).outOfOrder = 0 := by
  match seqs, pre with
  | _, [] => rfl
  | [], _ :: _ => exact absurd hpre (by simp)
  | _ :: rest, f :: pre =>
    obtain ⟨rfl, hpre'⟩ := List.cons_prefix_cons.1 hpre
    have horder' : InOrder (f :: pre) := List.IsChain.prefix horder hpre
    rcases hshort with hsingle | hsmall
    · have hrest : rest = [] := List.eq_nil_of_length_eq_zero (by simpa using hsingle)
      rw [hrest, List.prefix_nil] at hpre'
      subst hpre'
      rw [after, Machine.run_cons, Machine.run_nil]
      rcases markReceived_withCapacity h1 f with ⟨-, he⟩ | ⟨_, he⟩ <;> rw [step_init he]
    · rw [after, Machine.run_cons]
      exact run_following h1 hn (first_following h1 hn hsmall) pre horder'

/-- and no other in-order stream has -/
theorem short_of_outOfOrder (h1 : 1 ≤ n) (hn : n < 2 ^ 23) {seqs : List Nat} (hs : ∀ s ∈ seqs, s < 2 ^ 24)
    (horder : InOrder seqs) (hzero : ∀ pre, pre <+: seqs → (after n pre).outOfOrder = 0) :
    seqs.length ≤ 1 ∨ seqs.headD 0 ≤ 2 ^ 23 := by
  match seqs, horder with
  | [], _ => exact Or.inl (by simp)
  | [f], _ => exact Or.inl (by simp)
  | f :: s :: rest, horder =>
    right
    by_contra hlarge
    obtain ⟨rfl, -⟩ := List.isChain_cons_cons.1 horder
    have htwo := hzero [f, successor f] ⟨rest, rfl⟩
    have hone := second_outOfOrder h1 hn (hs f List.mem_cons_self) (Nat.not_le.1 hlarge)
    rw [after, Machine.run_cons, Machine.run_cons, Machine.run_nil, hone] at htwo
    cases htwo

end Tally

/-- **When the receive statistics are exact.** For every capacity and every run of 24-bit numbers on a fresh window:
`stats()` reports, in every state of the run, the numbers of new, duplicate and out-of-order packets if and only if every
call of the run is `Counted`. And in a window shorter than half the range, an in-order stream whose calls are all counted
has no packet out of order, in every state, if and only if it is a single packet or starts at most at 2^23. -/
theorem statistics_exact_iff (n : Nat) (seqs : List Nat) (hs : ∀ s ∈ seqs, s < 2 ^ 24) :
    ((∀ pre, pre <+: seqs → (Tally.after n pre).Exact) ↔ Machine.Steps Tally.step Tally.Counted (Tally.init n) seqs) ∧
    (1 ≤ n → n < 2 ^ 23 → Tally.InOrder seqs →
      ((∀ pre, pre <+: seqs → (Tally.after n pre).Exact ∧ (Tally.after n pre).window.stats.totalOutOfOrder = 0) ↔
        Machine.Steps Tally.step Tally.Counted (Tally.init n) seqs ∧ (seqs.length ≤ 1 ∨ seqs.headD 0 ≤ 2 ^ 23))) := by
  have hexact := Tally.exact_iff_steps (Tally.sound_init n) hs
  refine ⟨hexact, ?_⟩
  intro h1 hn horder
  rw [← hexact]
  constructor
  · intro hall
    refine ⟨fun pre hpre => (hall pre hpre).1, Tally.short_of_outOfOrder h1 hn hs horder ?_⟩
    intro pre hpre
    obtain ⟨hex, hzero⟩ := hall pre hpre
    exact hex.outOfOrder.symm.trans hzero
  · rintro ⟨hex, hshort⟩ pre hpre
    exact ⟨hex pre hpre, (hex pre hpre).outOfOrder.trans (Tally.outOfOrder_after h1 hn horder hshort hpre)⟩

/-- a duplicate and a gap, and an in-order stream that leaves a window of capacity 4 -/
theorem statistics_exact_test :
    (Tally.after 2048 [0, 1, 1, 5]).Exact ∧ (Tally.after 4 [0, 1, 2, 3, 4]).window.stats.totalOutOfOrder = 0 := by
  have hsteps : Machine.Steps Tally.step Tally.Counted (Tally.init 2048) [0, 1, 1, 5] :=
    ⟨by decide +kernel, by decide +kernel, by decide +kernel, by decide +kernel, trivial⟩
  have hstream : Machine.Steps Tally.step Tally.Counted (Tally.init 4) [0, 1, 2, 3, 4] :=
    ⟨by decide +kernel, by decide +kernel, by decide +kernel, by decide +kernel, by decide +kernel, trivial⟩
  have horder : Tally.InOrder [0, 1, 2, 3, 4] := by simp [Tally.InOrder, successor]
  refine ⟨(statistics_exact_iff 2048 [0, 1, 1, 5] (by decide)).1.2 hsteps _ (List.prefix_refl _), ?_⟩
  have hboth := (statistics_exact_iff 4 [0, 1, 2, 3, 4] (by decide)).2 (by decide) (by decide) horder
  exact (hboth.2 ⟨hstream, Or.inr (by decide)⟩ _ (List.prefix_refl _)).2

/-- **The statistics are wrong.** 5000 after 0 is not counted as out of order; of two jumps and the 0 that follows 2^24 - 1
only the 0 is; and an in-order stream that starts at 2^24 - 1 has one packet out of order. -/
theorem statistics_wrong :
    ((Tally.after 2048 [0, 5000]).window.stats.totalOutOfOrder = 0 ∧ (Tally.after 2048 [0, 5000]).outOfOrder = 1) ∧
    ((Tally.after 2048 [0x800000, 0xC00000, 0xFFFFFF]).window.stats.totalOutOfOrder = 0 ∧
      (Tally.after 2048 [0x800000, 0xC00000, 0xFFFFFF]).window.highest = 0xFFFFFF ∧
      (Tally.after 2048 [0x800000, 0xC00000, 0xFFFFFF, 0]).window.stats.totalOutOfOrder = 1) ∧
    (Tally.InOrder [0xFFFFFF, 0] ∧ (Tally.after 2048 [0xFFFFFF, 0]).window.stats.totalOutOfOrder = 1) ∧
    ¬ ∀ seqs : List Nat, (∀ s ∈ seqs, s < 2 ^ 24) → (Tally.after 2048 seqs).Exact := by
  have hjump : (Tally.after 2048 [0, 5000]).window.stats.totalOutOfOrder = 0 ∧
      (Tally.after 2048 [0, 5000]).outOfOrder = 1 := ⟨by decide +kernel, by decide +kernel⟩
  refine ⟨hjump, ⟨by decide +kernel, by decide +kernel, by decide +kernel⟩, ⟨?_, by decide +kernel⟩, ?_⟩
  · simp [Tally.InOrder, successor]
  · intro hall
    have hbad := (hall [0, 5000] (by decide)).outOfOrder
    rw [hjump.1, hjump.2] at hbad
    exact absurd hbad (by decide)

end RecvWindow

end RakNet
