/-
What `get_missing` reports (`src/reliability/recv_window.rs`), along runs of `mark_received` and `advance_base`.

It is documented to give the numbers of the range from the base to the highest number that were not received. Two things
break that. The end of the range is a masked difference, so when `advance_base` has moved the base past the highest number it
is 2^24 - 1 and the whole window counts as missing; and a reset clears the bits of numbers that were accepted.

- `getMissing_eq`: what the scan gives where the base is at or before the highest number.
- `missing_exact_iff`: the runs along which it is exact.
- `missing_after_advance`: one packet and one `advance_base`.
-/
import RakNet.Reliability.Classify

namespace RakNet

open Lib

namespace RecvWindow

variable {n : Nat}

/-! ## The scan -/

theorem mem_getMissing {w : RecvWindow n} (ht : w.totalReceived ≠ 0) {i : Nat} (hi : i < n)
    (hle : i ≤ w.offset w.highestSeq) (hbit : w.received[i] = false) :
    wrappingAdd w.baseSeq i &&& mask24 ∈ w.getMissing := by
  unfold getMissing
  rw [if_neg (fun hc => ht hc.2)]
  refine List.mem_map.2 ⟨i, List.mem_filter.2 ⟨List.mem_range.2 ?_, ?_⟩, rfl⟩
  · rw [Nat.lt_succ_iff, Nat.le_min]
    omega
  · rw [Vector.getElem?_eq_getElem hi, hbit]
    rfl

/-- **The scan** of a window whose highest number is in it: the numbers up to it whose bits are clear. -/
theorem getMissing_eq {w : RecvWindow n} (ht : w.totalReceived ≠ 0) (hle : w.baseSeq ≤ w.highestSeq)
    (hlt : w.highestSeq < w.baseSeq + n) (hh : w.highestSeq < 2 ^ 23) :
    w.getMissing = (List.range' w.baseSeq (w.highestSeq + 1 - w.baseSeq)).filter fun seq =>
      decide (w.received[seq - w.baseSeq]? = some false) := by
  have hmin : min (w.offset w.highestSeq) (n - 1) = w.highestSeq - w.baseSeq := by
    rw [offset_of_le w hh hle]
    omega
  have hlen : w.highestSeq - w.baseSeq + 1 = w.highestSeq + 1 - w.baseSeq := by omega
  unfold getMissing
  rw [if_neg (fun hc => ht hc.2), hmin]
  dsimp only
  rw [hlen, List.range'_eq_map_range, List.filter_map]
  have hfilter : (List.range (w.highestSeq + 1 - w.baseSeq)).filter
      ((fun seq => decide (w.received[seq - w.baseSeq]? = some false)) ∘ fun i => w.baseSeq + i) =
      (List.range (w.highestSeq + 1 - w.baseSeq)).filter fun i => decide (w.received[i]? = some false) := by
    apply List.filter_congr
    intro i _
    rw [Function.comp_apply, Nat.add_sub_cancel_left]
  rw [hfilter]
  apply List.map_congr_left
  intro i hi
  have hi' := List.mem_range.1 (List.mem_of_mem_filter hi)
  rw [and_mask24, wrappingAdd]
  omega

namespace Track

/-! ## Runs -/

def call (t : Track n) : Call → Track n
  | .markReceived seq => t.step seq
  | .advanceBase => { t with window := t.window.advanceBase }

/-- `get_missing` gives the numbers from the base to the highest that were never accepted, once and in order -/
def MissingExact (t : Track n) : Prop :=
  t.accepted ≠ [] → t.window.getMissing =
    (List.range' t.window.baseSeq (t.window.highestSeq + 1 - t.window.baseSeq)).filter fun seq =>
      decide (seq ∉ t.accepted)

theorem mem_of_missingExact {t : Track n} (h : t.MissingExact) (hne : t.accepted ≠ []) {seq : Nat}
    (hs : seq ∈ t.window.getMissing) : seq ≤ t.window.highestSeq ∧ seq ∉ t.accepted := by
  rw [h hne, List.mem_filter, List.mem_range'_1, decide_eq_true_eq] at hs
  exact ⟨by omega, hs.2⟩

/-- every accepted number is remembered, and the base has not overtaken the highest of them -/
structure Remembering (t : Track n) : Prop where
  sound : t.Sound
  exact : t.Exact
  counted : t.window.totalReceived = 0 ↔ t.accepted = []
  le_highest : ∀ a ∈ t.accepted, a ≤ t.window.highestSeq
  highest_mem : t.accepted ≠ [] → t.window.highestSeq ∈ t.accepted
  highest_lt : t.window.highestSeq < t.window.baseSeq + n
  base_le : t.accepted ≠ [] → t.window.baseSeq ≤ t.window.highestSeq

theorem remembering_init (h1 : 1 ≤ n) : (init n).Remembering := by
  refine ⟨sound_init n, exact_init n, iff_of_true rfl rfl, ?_, fun hne => absurd rfl hne, ?_, fun hne => absurd rfl hne⟩
  · intro a ha
    cases ha
  · show 0 < 0 + n
    omega

theorem Remembering.missingExact {t : Track n} (h : t.Remembering) : t.MissingExact := by
  intro hne
  have ht : t.window.totalReceived ≠ 0 := fun h0 => hne (h.counted.1 h0)
  have hh := h.sound.lt _ (h.highest_mem hne)
  rw [getMissing_eq ht (h.base_le hne) h.highest_lt hh]
  apply List.filter_congr
  intro seq hs
  have hs' := List.mem_range'_1.1 hs
  have hlt := h.highest_lt
  have hin : seq - t.window.baseSeq < n := by omega
  have hseq : t.window.baseSeq + (seq - t.window.baseSeq) = seq := by omega
  rw [decide_eq_decide, Vector.getElem?_eq_getElem hin, Option.some.injEq]
  constructor
  · intro hclear hmem
    rcases h.exact.remembered seq hmem with hold | ⟨_, hbit⟩
    · omega
    · rw [hclear] at hbit
      cases hbit
  · intro hnot
    by_contra hbit
    rw [Bool.not_eq_false] at hbit
    have hmem := h.sound.bits _ hin hbit
    rw [hseq] at hmem
    exact hnot hmem

/-- **The condition.** An arrival is safe; and `advance_base` finds the base missing, or a number up to the highest. -/
def Kept (t : Track n) : Call → Prop
  | .markReceived seq => t.Safe seq
  | .advanceBase => t.window.contiguous = 0 ∨ t.window.baseSeq + t.window.contiguous ≤ t.window.highestSeq

instance (t : Track n) : (c : Call) → Decidable (t.Kept c)
  | .markReceived seq => inferInstanceAs (Decidable (t.Safe seq))
  | .advanceBase => inferInstanceAs (Decidable (_ ∨ _))

/-! ## One arrival -/

/-- a bound of a list with one more number -/
theorem le_of_snoc {as : List Nat} {seq top : Nat} (has : ∀ a ∈ as, a ≤ top) (hseq : seq ≤ top) :
    ∀ a ∈ as ++ [seq], a ≤ top := by
  rw [List.forall_mem_append, List.forall_mem_singleton]
  exact ⟨has, hseq⟩

/-- the highest number after one that was new -/
theorem Remembering.highest_new {t : Track n} (h : t.Remembering) {seq : Nat} (hs : seq < 2 ^ 23) {highest : Nat}
    (hhigh : highest = if seqLessThan t.window.highestSeq seq || t.window.totalReceived + 1 == 1 then seq
      else t.window.highestSeq) :
    (∀ a ∈ t.accepted ++ [seq], a ≤ highest) ∧ highest ∈ t.accepted ++ [seq] ∧ (highest = seq ∨
      highest = t.window.highestSeq) := by
  have hlast : seq ∈ t.accepted ++ [seq] := List.mem_append_right _ List.mem_cons_self
  by_cases h0 : t.accepted = []
  · have hseq : highest = seq := by
      rw [hhigh, h.counted.2 h0]
      simp
    rw [hseq, h0]
    exact ⟨le_of_snoc (fun a ha => (by cases ha)) (le_refl _), List.mem_cons_self, Or.inl rfl⟩
  · have hmem := h.highest_mem h0
    have hone : (t.window.totalReceived + 1 == 1) = false := by simpa using fun hz => h0 (h.counted.1 hz)
    rw [seqLessThan_of_lt (h.sound.lt _ hmem) hs, hone, Bool.or_false] at hhigh
    by_cases hless : t.window.highestSeq < seq
    · rw [if_pos (decide_eq_true hless)] at hhigh
      rw [hhigh]
      refine ⟨le_of_snoc ?_ (le_refl _), hlast, Or.inl rfl⟩
      intro a ha
      exact le_of_lt (lt_of_le_of_lt (h.le_highest a ha) hless)
    · rw [if_neg (by simpa using hless)] at hhigh
      rw [hhigh]
      exact ⟨le_of_snoc h.le_highest (Nat.not_lt.1 hless), List.mem_append_left _ hmem, Or.inr rfl⟩

/-- where a reset puts the base and the highest number -/
theorem Remembering.reset_bounds {t : Track n} (h : t.Remembering) (h1 : 1 ≤ n) {seq : Nat} (hs : seq < 2 ^ 23)
    (hoff : n ≤ seq - t.window.baseSeq) : (t.window.reset seq (half_lt h1)).baseSeq = seq - n / 2 ∧
      (t.window.reset seq (half_lt h1)).highestSeq = seq := by
  have hlt := h.highest_lt
  constructor
  · rw [reset_baseSeq]
    omega
  · apply if_pos
    rw [seqLessThan_of_lt (by omega) hs]
    exact decide_eq_true (by omega)

/-- a number past the window: the reset keeps what is asked of the window if the arrival is safe -/
theorem Remembering.reset {t : Track n} (h : t.Remembering) (h1 : 1 ≤ n) (hn : n ≤ 2 ^ 23) {seq : Nat} (hs : seq < 2 ^ 23)
    (hsafe : t.Safe seq) (hold : t.window.tooOld seq = false) (hoff : n ≤ t.window.offset seq)
    (he : t.window.markReceived seq = (some true, t.window.reset seq (half_lt h1))) : (t.step seq).Remembering := by
  have hsound := step_sound h1 hn h.sound hs
  have hexact := step_exact h1 hn h.sound h.exact hs hsafe
  have hbase := h.sound.base_le hs hold
  rw [offset_of_le _ hs hbase] at hoff
  have hlt := h.highest_lt
  have hhalf := half_lt h1
  obtain ⟨hlow, hhigh⟩ := h.reset_bounds h1 hs hoff
  have hstep : t.step seq = ⟨t.window.reset seq (half_lt h1), t.accepted ++ [seq]⟩ := by
    rw [step_accepted (by rw [he]), he]
  rw [hstep] at hsound hexact ⊢
  refine ⟨hsound, hexact, ?_, ?_, ?_, ?_, ?_⟩
  · exact iff_of_false (Nat.succ_ne_zero _) (by simp)
  · dsimp only
    rw [hhigh]
    apply le_of_snoc _ (le_refl _)
    intro a ha
    have hle := h.le_highest a ha
    omega
  · intro _
    dsimp only
    rw [hhigh]
    exact List.mem_append_right _ List.mem_cons_self
  · dsimp only
    omega
  · intro _
    dsimp only
    omega

/-- a number inside the window that was not there -/
theorem Remembering.accept {t : Track n} (h : t.Remembering) (h1 : 1 ≤ n) (hn : n ≤ 2 ^ 23) {seq : Nat} (hs : seq < 2 ^ 23)
    (hsafe : t.Safe seq) (hold : t.window.tooOld seq = false) (hoff : t.window.offset seq < n)
    (he : t.window.markReceived seq = (some true, t.window.accept seq hoff)) : (t.step seq).Remembering := by
  have hsound := step_sound h1 hn h.sound hs
  have hexact := step_exact h1 hn h.sound h.exact hs hsafe
  have hbase := h.sound.base_le hs hold
  have hin := hoff
  rw [offset_of_le _ hs hbase] at hin
  obtain ⟨hle, hmem, hcases⟩ := h.highest_new hs (rfl : (t.window.accept seq hoff).highestSeq = _)
  have hlt := h.highest_lt
  have hstep : t.step seq = ⟨t.window.accept seq hoff, t.accepted ++ [seq]⟩ := by
    rw [step_accepted (by rw [he]), he]
  rw [hstep] at hsound hexact ⊢
  refine ⟨hsound, hexact, ?_, hle, fun _ => hmem, ?_, ?_⟩
  · exact iff_of_false (Nat.succ_ne_zero _) (by simp)
  · dsimp only
    rw [accept_baseSeq]
    omega
  · intro _
    dsimp only
    rw [accept_baseSeq]
    exact le_trans hbase (hle seq (List.mem_append_right _ List.mem_cons_self))

theorem Remembering.markReceived {t : Track n} (h : t.Remembering) (h1 : 1 ≤ n) (hn : n ≤ 2 ^ 23) {seq : Nat}
    (hs : seq < 2 ^ 23) (hsafe : t.Safe seq) : (t.step seq).Remembering := by
  rcases markReceived_cases t.window seq h1 with ⟨-, he⟩ | ⟨hold, hoff, he⟩ | ⟨-, -, -, he⟩ | ⟨hold, hoff, -, he⟩
  · rw [step_refused (by rw [he]; simp), he]
    exact h
  · exact h.reset h1 hn hs hsafe hold hoff he
  · rw [step_refused (by rw [he]; simp), he]
    exact ⟨⟨h.sound.base_lt, h.sound.fresh, h.sound.lt, h.sound.bits⟩, ⟨h.exact.nodup, h.exact.remembered⟩, h.counted,
      h.le_highest, h.highest_mem, h.highest_lt, h.base_le⟩
  · exact h.accept h1 hn hs hsafe hold hoff he

/-- an arrival that is not safe: a number that was accepted is reported as missing -/
theorem Remembering.safe_of_missingExact {t : Track n} (h : t.Remembering) (h1 : 1 ≤ n) (hn : n ≤ 2 ^ 23) {seq : Nat}
    (hs : seq < 2 ^ 23) (hexact : (t.step seq).MissingExact) : t.Safe seq := by
  intro hold hoff i hi hbit
  by_contra hback
  have hbase := h.sound.base_le hs hold
  have hreset := markReceived_reset h1 hold hoff
  rw [offset_of_le _ hs hbase] at hoff hback
  have hmem := h.sound.bits i hi hbit
  have hhalf := half_lt h1
  have hlt := h.highest_lt
  obtain ⟨hlow, hhigh⟩ := h.reset_bounds h1 hs hoff
  have hstep : t.step seq = ⟨t.window.reset seq (half_lt h1), t.accepted ++ [seq]⟩ := by
    rw [step_accepted (by rw [hreset]), hreset]
  rw [hstep] at hexact
  -- the bit of the number at offset i of the old window is clear in the new one
  have hclear : (t.window.reset seq (half_lt h1)).received[t.window.baseSeq + i - (seq - n / 2)]? = some false := by
    have hin : t.window.baseSeq + i - (seq - n / 2) < n := by omega
    rw [Vector.getElem?_eq_getElem hin, received_reset_of_ne _ _ _ hin (by omega)]
  have hreported : t.window.baseSeq + i ∈ (t.window.reset seq (half_lt h1)).getMissing := by
    rw [getMissing_eq (Nat.succ_ne_zero _) (by omega) (by omega) (by omega), List.mem_filter, List.mem_range'_1, hlow]
    exact ⟨by omega, decide_eq_true hclear⟩
  have hnot := (mem_of_missingExact hexact (by simp) hreported).2
  exact hnot (List.mem_append_left _ hmem)

/-! ## Advancing the base -/

/-- the first numbers of the window whose bits are set were accepted -/
theorem Remembering.contiguous_accepted {t : Track n} (h : t.Remembering) {i : Nat} (hi : i < t.window.contiguous) :
    t.window.baseSeq + i ∈ t.accepted := by
  have hin : i < n := lt_of_lt_of_le hi t.window.contiguous_le
  exact h.sound.bits i hin (t.window.contiguous_bit hi hin)

theorem Remembering.advanceBase {t : Track n} (h : t.Remembering) (hn : n ≤ 2 ^ 23) (hkept : t.Kept .advanceBase) :
    (t.call .advanceBase).Remembering := by
  have hlt := h.highest_lt
  have hb := h.sound.base_lt
  simp only [call]
  rcases advanceBase_cases t.window (by omega) hn with ⟨-, he⟩ | ⟨hpos, hpart, he⟩ | ⟨hpos, hfull, he⟩
  · rw [he]
    exact h
  · have hne : t.accepted ≠ [] := List.ne_nil_of_mem (h.contiguous_accepted hpos)
    have hhigh := h.sound.lt _ (h.highest_mem hne)
    have hle : t.window.baseSeq + t.window.contiguous ≤ t.window.highestSeq := by
      rcases hkept with h0 | hle
      · omega
      · exact hle
    have hbase : (t.window.baseSeq + t.window.contiguous) % 2 ^ 24 = t.window.baseSeq + t.window.contiguous :=
      Nat.mod_eq_of_lt (by omega)
    rw [he, hbase]
    refine ⟨⟨?_, ?_, h.sound.lt, ?_⟩, ⟨h.exact.nodup, ?_⟩, h.counted, h.le_highest, h.highest_mem, ?_, fun _ => hle⟩
    · dsimp only
      omega
    · intro h0
      exact absurd (h.counted.1 h0) hne
    · intro i hi hbit
      simp only [Vector.getElem_ofFn] at hbit
      split_ifs at hbit with hin
      have hmem := h.sound.bits _ hin hbit
      dsimp only
      rwa [Nat.add_assoc, Nat.add_comm t.window.contiguous]
    · intro a ha
      rcases h.exact.remembered a ha with hold | ⟨hin, hbit⟩
      · exact Or.inl (by dsimp only; omega)
      · by_cases hlow : a < t.window.baseSeq + t.window.contiguous
        · exact Or.inl hlow
        · have hoff : a - (t.window.baseSeq + t.window.contiguous) + t.window.contiguous = a - t.window.baseSeq := by omega
          refine Or.inr ⟨by dsimp only; omega, ?_⟩
          simp only [Vector.getElem_ofFn, hoff, dif_pos hin]
          exact hbit
    · dsimp only
      omega
  · exfalso
    rcases hkept with h0 | hle
    · omega
    · omega

/-- a base that has overtaken the highest number, or an accepted one that was cleared, is reported as missing -/
theorem Remembering.kept_of_missingExact {t : Track n} (h : t.Remembering) (h2 : 2 ≤ n) (hn : n ≤ 2 ^ 23)
    (hexact : (t.call .advanceBase).MissingExact) : t.Kept .advanceBase := by
  by_contra hkept
  simp only [Kept, not_or, Nat.not_le] at hkept
  obtain ⟨h0, hover⟩ := hkept
  have hb := h.sound.base_lt
  have hpos : 0 < t.window.contiguous := Nat.pos_of_ne_zero h0
  have hne : t.accepted ≠ [] := List.ne_nil_of_mem (h.contiguous_accepted hpos)
  have htotal : t.window.totalReceived ≠ 0 := fun hz => hne (h.counted.1 hz)
  simp only [call] at hexact
  -- the first bit after the slide is clear, so the scan reports the new base
  have hreported : ∀ {w : RecvWindow n}, t.window.advanceBase = w → w.baseSeq < 2 ^ 24 → w.totalReceived ≠ 0 →
      w.received[0]? = some false → w.baseSeq ≤ w.highestSeq ∧ w.baseSeq ∉ t.accepted := by
    intro w he hlow ht hclear
    rw [he] at hexact
    have hzero : 0 < n := by omega
    rw [Vector.getElem?_eq_getElem hzero, Option.some.injEq] at hclear
    have hmem := mem_getMissing ht hzero (Nat.zero_le _) hclear
    have hself : wrappingAdd w.baseSeq 0 &&& mask24 = w.baseSeq := by
      rw [and_mask24, wrappingAdd]
      omega
    rw [hself] at hmem
    exact mem_of_missingExact hexact hne hmem
  rcases advanceBase_cases t.window (by omega) hn with ⟨hz, -⟩ | ⟨-, hpart, he⟩ | ⟨-, hfull, he⟩
  · exact h0 hz
  · have hclear : (Vector.ofFn fun i : Fin n => if hi : i.val + t.window.contiguous < n
        then t.window.received[i.val + t.window.contiguous] else false)[0]? = some false := by
      rw [Vector.getElem?_eq_getElem (by omega), Vector.getElem_ofFn]
      simp only [Nat.zero_add, dif_pos hpart, t.window.contiguous_stop hpart]
    have hrep := (hreported he (Nat.mod_lt _ (by decide)) htotal hclear).1
    dsimp only at hrep
    rw [Nat.mod_eq_of_lt (by omega)] at hrep
    omega
  · have hclear : (Vector.replicate n false)[0]? = some false := by
      rw [Vector.getElem?_eq_getElem (by omega), Vector.getElem_replicate]
    have hrep := (hreported he (Nat.mod_lt _ (by decide)) htotal hclear).2
    dsimp only at hrep
    have hbase : (t.window.baseSeq + n - n / 2) % 2 ^ 24 = t.window.baseSeq + (n - n / 2) := by omega
    rw [hbase] at hrep
    exact hrep (h.contiguous_accepted (by omega))

/-! ## Whole runs -/

/-- a fresh window of `RecvWindow::new` after these calls, with what it accepted -/
def afterCalls (calls : List Call) : Track 2048 := Machine.run call (init 2048) calls

end Track

/-- **When `get_missing` is exact.** For every run of `mark_received` and `advance_base` on a fresh window, all numbers below
2^23: in every state of the run that has accepted a packet, `get_missing` gives the numbers from the base to the highest
that were never accepted, if and only if every arrival is safe where it happens and every `advance_base` finds the base
missing, or a number up to the highest. -/
theorem missing_exact_iff (calls : List Call) (hs : ∀ seq, .markReceived seq ∈ calls → seq < 2 ^ 23) :
    (∀ a, a <+: calls → (Track.afterCalls a).MissingExact) ↔
      Machine.Steps Track.call Track.Kept (Track.init 2048) calls := by
  have h1 : 1 ≤ 2048 := by decide
  have hn : 2048 ≤ 2 ^ 23 := by decide
  refine @Machine.prefixes_iff_steps (Track 2048) Call Track.call (fun c => ∀ seq, c = .markReceived seq → seq < 2 ^ 23)
    Track.Kept Track.Remembering Track.MissingExact ?_ (fun _ h => h.missingExact) ?_ _ (Track.remembering_init h1) _ ?_
  · intro t c hc h hkept
    cases c with
    | markReceived seq => exact h.markReceived h1 hn (hc seq rfl) hkept
    | advanceBase => exact h.advanceBase hn hkept
  · intro t c hc h hexact
    cases c with
    | markReceived seq => exact h.safe_of_missingExact h1 hn (hc seq rfl) hexact
    | advanceBase => exact h.kept_of_missingExact (by decide) hn hexact
  · rintro c hc seq rfl
    exact hs seq hc

/-- the packets 0, 2, 4 and 5, and `advance_base` after them -/
theorem missing_exact_four :
    (Track.afterCalls [.markReceived 0, .markReceived 2, .markReceived 4, .markReceived 5, .advanceBase]).MissingExact := by
  have hkept : Machine.Steps Track.call Track.Kept (Track.init 2048)
      [.markReceived 0, .markReceived 2, .markReceived 4, .markReceived 5, .advanceBase] :=
    ⟨by decide +kernel, by decide +kernel, by decide +kernel, by decide +kernel, by decide +kernel, trivial⟩
  refine (missing_exact_iff [.markReceived 0, .markReceived 2, .markReceived 4, .markReceived 5, .advanceBase] ?_).2 hkept _
    (List.prefix_refl _)
  intro seq hseq
  simp at hseq
  omega

/-- **A base past the highest number.** After one packet and one `advance_base` there is nothing left to be missing, and numbers
are reported all the same. -/
theorem missing_after_advance :
    (Track.afterCalls [.markReceived 0, .advanceBase]).accepted = [0] ∧
      (Track.afterCalls [.markReceived 0, .advanceBase]).window.baseSeq = 1 ∧
      (Track.afterCalls [.markReceived 0, .advanceBase]).window.highestSeq = 0 ∧
      (Track.afterCalls [.markReceived 0, .advanceBase]).window.getMissing ≠ [] ∧
      ¬ (Track.afterCalls [.markReceived 0, .advanceBase]).MissingExact := by
  have hinit : (Track.init 2048).Remembering := Track.remembering_init (by decide)
  have hfirst : ((Track.init 2048).step 0).Remembering := by
    apply hinit.markReceived
    · decide
    · decide
    · decide
    · decide +kernel
  have hnot : ¬ (Track.afterCalls [.markReceived 0, .advanceBase]).MissingExact := by
    intro hexact
    have hkept := hfirst.kept_of_missingExact (by decide) (by decide) hexact
    revert hkept
    decide +kernel
  have hbase : (Track.afterCalls [.markReceived 0, .advanceBase]).window.baseSeq = 1 := by decide +kernel
  have hhighest : (Track.afterCalls [.markReceived 0, .advanceBase]).window.highestSeq = 0 := by decide +kernel
  refine ⟨by decide +kernel, hbase, hhighest, ?_, hnot⟩
  intro hnil
  apply hnot
  intro _
  rw [hnil, hbase, hhighest]
  rfl

end RecvWindow

end RakNet
