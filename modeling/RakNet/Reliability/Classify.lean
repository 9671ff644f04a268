/-
What `mark_received` answers, in every state a receive window can reach by `mark_received` and `advance_base`.

- `markReceivedIndexed_eq`, `advanceBaseIndexed_eq`: with their index expressions, the functions never leave the bit vector.
- `mark_received_classified`: the three answers, what each changes, and what stays.
-/
import RakNet.Error
import RakNet.Reliability.RecvWindow

namespace RakNet

open Lib Lib.Wire

namespace RecvWindow

variable {n : Nat}

/-! ## Index expressions -/

/-- `self.received[i]` -/
def bitAt (w : RecvWindow n) (i : Nat) : Result Bool := if h : i < n then .ok w.received[i] else .panic

/-- `self.received.set(i, true)` -/
def setBit (w : RecvWindow n) (i : Nat) : Result (RecvWindow n) :=
  if h : i < n then .ok { w with received := w.received.set i true } else .panic

/-- `slide_to` with the slices of its last branch: `copy_within(shift.., 0)` and `received[max_size - shift..]` -/
def slideToIndexed (w : RecvWindow n) (newSeq : Nat) : Result (RecvWindow n) :=
  let shift := w.offset newSeq
  if shift = 0 then .ok w
  else if n ≤ shift then
    .ok { w with received := Vector.replicate n false, baseSeq := wrappingSub newSeq (n / 2 % 2 ^ 32) &&& mask24 }
  else if shift ≤ n then do
    let tail ← Profile.dev.sub 64 n shift
    if tail ≤ n then
      .ok { w with
        received := Vector.ofFn fun i => if h : i.val + shift < n then w.received[i.val + shift] else false
        baseSeq := wrappingAdd w.baseSeq shift &&& mask24 }
    else .panic
  else .panic

/-- `mark_received` with its index expressions -/
def markReceivedIndexed (w : RecvWindow n) (seq : Nat) : Result (Option Bool × RecvWindow n) :=
  if seqLessThan seq w.baseSeq && decide (0 < w.totalReceived) then .ok (none, w)
  else if n ≤ w.offset seq then do
    let slid ← w.slideToIndexed seq
    if n ≤ slid.offset seq then return (none, slid)
    let marked ← slid.setBit (slid.offset seq)
    return (some true, { marked with
      totalReceived := slid.totalReceived + 1
      highestSeq := if seqLessThan slid.highestSeq seq then seq else slid.highestSeq })
  else do
    if ← w.bitAt (w.offset seq) then return (some false, { w with totalDuplicates := w.totalDuplicates + 1 })
    let marked ← w.setBit (w.offset seq)
    return (some true, { marked with
      totalReceived := w.totalReceived + 1
      totalOutOfOrder :=
        if seq != wrappingAdd w.highestSeq 1 && decide (1 < w.totalReceived + 1) then w.totalOutOfOrder + 1
        else w.totalOutOfOrder
      highestSeq := if seqLessThan w.highestSeq seq || w.totalReceived + 1 == 1 then seq else w.highestSeq })

/-- `has_received` with its index expression -/
def hasReceivedIndexed (w : RecvWindow n) (seq : Nat) : Result Bool :=
  if seqLessThan seq w.baseSeq then .ok false
  else if n ≤ w.offset seq then .ok false
  else w.bitAt (w.offset seq)

/-- the loop of `advance_base` over the offsets that are left -/
def contiguousLoop (w : RecvWindow n) : Nat → List Nat → Result Nat
  | shift, [] => .ok shift
  | shift, offset :: rest => do
    if ← w.bitAt offset then contiguousLoop w (offset + 1) rest else return shift

/-- `advance_base` with its index expressions -/
def advanceBaseIndexed (w : RecvWindow n) : Result (RecvWindow n) := do
  let shift ← w.contiguousLoop 0 (List.range n)
  if 0 < shift then w.slideToIndexed (wrappingAdd w.baseSeq (shift % 2 ^ 32)) else return w

theorem bitAt_of_lt (w : RecvWindow n) {i : Nat} (h : i < n) : w.bitAt i = .ok w.received[i] := dif_pos h

theorem setBit_of_lt (w : RecvWindow n) {i : Nat} (h : i < n) :
    w.setBit i = .ok { w with received := w.received.set i true } := dif_pos h

theorem slideToIndexed_eq (w : RecvWindow n) (newSeq : Nat) : w.slideToIndexed newSeq = .ok (w.slideTo newSeq) := by
  unfold slideToIndexed slideTo
  dsimp only
  by_cases h0 : w.offset newSeq = 0
  · rw [if_pos h0, if_pos h0]
  rw [if_neg h0, if_neg h0]
  by_cases hfull : n ≤ w.offset newSeq
  · rw [if_pos hfull, if_pos hfull]
  rw [if_neg hfull, if_neg hfull, if_pos (by omega), Profile.sub_of_le .dev (by omega), Outcome.bind_ok, if_pos (by omega)]

theorem markReceivedIndexed_eq (w : RecvWindow n) (seq : Nat) : w.markReceivedIndexed seq = .ok (w.markReceived seq) := by
  unfold markReceivedIndexed markReceived
  by_cases hold : (seqLessThan seq w.baseSeq && decide (0 < w.totalReceived)) = true
  · rw [if_pos hold, if_pos hold]
  rw [if_neg hold, if_neg hold]
  by_cases hin : w.offset seq < n
  · rw [if_neg (Nat.not_le.2 hin), dif_pos hin, bitAt_of_lt w hin, Outcome.bind_ok]
    by_cases hbit : w.received[w.offset seq] = true
    · rw [if_pos hbit, if_pos hbit]
      rfl
    · rw [if_neg hbit, if_neg hbit, setBit_of_lt w hin]
      rfl
  · rw [if_pos (Nat.not_lt.1 hin), dif_neg hin, slideToIndexed_eq, Outcome.bind_ok]
    dsimp only
    by_cases hslid : (w.slideTo seq).offset seq < n
    · rw [if_neg (Nat.not_le.2 hslid), dif_pos hslid, setBit_of_lt _ hslid]
      rfl
    · rw [if_pos (Nat.not_lt.1 hslid), dif_neg hslid]
      rfl

theorem hasReceivedIndexed_eq (w : RecvWindow n) (seq : Nat) : w.hasReceivedIndexed seq = .ok (w.hasReceived seq) := by
  unfold hasReceivedIndexed hasReceived
  by_cases hless : seqLessThan seq w.baseSeq = true
  · rw [if_pos hless, if_pos hless]
  rw [if_neg hless, if_neg hless]
  by_cases hin : w.offset seq < n
  · rw [if_neg (Nat.not_le.2 hin), dif_pos hin, bitAt_of_lt w hin]
  · rw [if_pos (Nat.not_lt.1 hin), dif_neg hin]

theorem contiguousLoop_eq (w : RecvWindow n) (m : Nat) {shift : Nat} (h : shift + m = n) :
    w.contiguousLoop shift (List.range' shift m) =
      .ok (shift + (w.received.toList.drop shift).findIdx fun bit => !bit) := by
  induction m generalizing shift with
  | zero =>
    have hdrop : w.received.toList.drop shift = [] := List.drop_eq_nil_of_le (by rw [Vector.length_toList]; omega)
    rw [hdrop]
    rfl
  | succ m ih =>
    have hlt : shift < n := by omega
    have hdrop : w.received.toList.drop shift = w.received[shift] :: w.received.toList.drop (shift + 1) := by
      rw [List.drop_eq_getElem_cons (by rw [Vector.length_toList]; exact hlt)]
      rfl
    rw [List.range'_succ, contiguousLoop, bitAt_of_lt w hlt, Outcome.bind_ok, hdrop, List.findIdx_cons]
    cases w.received[shift] with
    | true =>
      rw [if_pos rfl, ih (by omega)]
      simp only [Bool.not_true, cond_false]
      congr 1
      omega
    | false =>
      rw [if_neg (by simp)]
      rfl

theorem advanceBaseIndexed_eq (w : RecvWindow n) : w.advanceBaseIndexed = .ok w.advanceBase := by
  have hloop := w.contiguousLoop_eq n (Nat.zero_add n)
  rw [List.drop_zero, Nat.zero_add] at hloop
  unfold advanceBaseIndexed advanceBase
  rw [List.range_eq_range', hloop, Outcome.bind_ok, ← contiguous]
  by_cases hpos : 0 < w.contiguous
  · rw [if_pos hpos, if_pos hpos, slideToIndexed_eq]
  · rw [if_neg hpos, if_neg hpos]
    rfl

/-! ## Calls -/

/-- the two calls that change a window -/
inductive Call where
  | markReceived (seq : Nat)
  | advanceBase

def call (w : RecvWindow n) : Call → RecvWindow n
  | .markReceived seq => (w.markReceived seq).2
  | .advanceBase => w.advanceBase

/-- a fresh window after these calls -/
def afterCalls (n : Nat) (calls : List Call) : RecvWindow n := Machine.run call (withCapacity n) calls

/-! ## The answers -/

/-- what `mark_received` answers, what each answer changes, and that no index expression fails -/
structure Classified (w : RecvWindow n) (seq : Nat) : Prop where
  tooOld_iff : (w.markReceived seq).1 = none ↔ 0 < w.totalReceived ∧ seqLessThan seq w.baseSeq = true
  tooOld : (w.markReceived seq).1 = none → (w.markReceived seq).2 = w
  duplicate_iff : (w.markReceived seq).1 = some false ↔ w.hasReceived seq = true
  duplicate : (w.markReceived seq).1 = some false →
    (w.markReceived seq).2 = { w with totalDuplicates := w.totalDuplicates + 1 }
  fresh : ¬ (0 < w.totalReceived ∧ seqLessThan seq w.baseSeq = true) → w.hasReceived seq = false →
    (w.markReceived seq).1 = some true ∧ (w.markReceived seq).2.totalReceived = w.totalReceived + 1 ∧
      (w.markReceived seq).2.hasReceived seq = true
  /-- a number inside the window changes nothing for the others -/
  others : w.offset seq < n → ∀ t < 2 ^ 24, t ≠ seq → (w.markReceived seq).2.hasReceived t = w.hasReceived t
  inBounds : w.markReceivedIndexed seq = .ok (w.markReceived seq) ∧ w.hasReceivedIndexed seq = .ok (w.hasReceived seq) ∧
    w.advanceBaseIndexed = .ok w.advanceBase

theorem tooOld_iff (w : RecvWindow n) (seq : Nat) :
    w.tooOld seq = true ↔ 0 < w.totalReceived ∧ seqLessThan seq w.baseSeq = true := by
  rw [RecvWindow.tooOld, Bool.and_eq_true, decide_eq_true_eq, and_comm]

theorem hasReceived_of_offset (w : RecvWindow n) {seq : Nat} (hn : n ≤ 2 ^ 23) (h : w.offset seq < n) :
    w.hasReceived seq = w.received[w.offset seq] := by
  have hless : ¬ seqLessThan seq w.baseSeq = true := by
    rw [seqLessThan_base_iff]
    omega
  rw [hasReceived, if_neg hless, dif_pos h]

theorem hasReceived_of_past (w : RecvWindow n) {seq : Nat} (h : n ≤ w.offset seq) : w.hasReceived seq = false := by
  rw [hasReceived, dif_neg (Nat.not_lt.2 h)]
  exact ite_self _

/-- numbers of 24 bits at one offset are the same -/
theorem offset_inj {w : RecvWindow n} {s t : Nat} (hs : s < 2 ^ 24) (ht : t < 2 ^ 24)
    (h : w.offset s = w.offset t) : s = t := by
  rw [offset_eq, offset_eq] at h
  omega

/-- a number past the window sits in its middle after the reset -/
theorem hasReceived_reset (w : RecvWindow n) (seq : Nat) (h1 : 1 ≤ n) (hn : n ≤ 2 ^ 23) :
    (w.reset seq (half_lt h1)).hasReceived seq = true := by
  have hhalf := half_lt h1
  have hoff : (w.reset seq (half_lt h1)).offset seq = n / 2 := by
    rw [offset_eq, reset_baseSeq]
    omega
  have hlt : (w.reset seq (half_lt h1)).offset seq < n := by omega
  rw [hasReceived_of_offset _ hn hlt]
  simp only [hoff, reset_received, Vector.getElem_set_self]

theorem hasReceived_accept (w : RecvWindow n) {seq : Nat} (hn : n ≤ 2 ^ 23) (h : w.offset seq < n) :
    (w.accept seq h).hasReceived seq = true := by
  have hoff : (w.accept seq h).offset seq = w.offset seq := rfl
  rw [hasReceived_of_offset _ hn (by rw [hoff]; exact h)]
  simp only [hoff, accept_received, Vector.getElem_set_self]

theorem hasReceived_accept_other (w : RecvWindow n) {seq t : Nat} (hs : seq < 2 ^ 24) (ht : t < 2 ^ 24) (hne : t ≠ seq)
    (hn : n ≤ 2 ^ 23) (h : w.offset seq < n) : (w.accept seq h).hasReceived t = w.hasReceived t := by
  have hoff : (w.accept seq h).offset t = w.offset t := rfl
  by_cases hin : w.offset t < n
  · rw [hasReceived_of_offset _ hn (by rw [hoff]; exact hin), hasReceived_of_offset w hn hin]
    simp only [hoff, accept_received]
    rw [Vector.getElem_set_ne]
    intro heq
    exact hne (offset_inj hs ht heq).symm
  · rw [hasReceived_of_past _ (by rw [hoff]; omega), hasReceived_of_past w (by omega)]

theorem not_old_of_not_tooOld {w : RecvWindow n} {seq : Nat} (h : w.tooOld seq = false) :
    ¬ (0 < w.totalReceived ∧ seqLessThan seq w.baseSeq = true) := by
  rw [← tooOld_iff, h]
  exact Bool.false_ne_true

theorem inBounds (w : RecvWindow n) (seq : Nat) :
    w.markReceivedIndexed seq = .ok (w.markReceived seq) ∧ w.hasReceivedIndexed seq = .ok (w.hasReceived seq) ∧
      w.advanceBaseIndexed = .ok w.advanceBase :=
  ⟨w.markReceivedIndexed_eq seq, w.hasReceivedIndexed_eq seq, w.advanceBaseIndexed_eq⟩

/-- a number that is taken, with or without a reset -/
theorem classified_of_taken {w w' : RecvWindow n} {seq : Nat} (ho : w.tooOld seq = false)
    (he : w.markReceived seq = (some true, w')) (hnot : w.hasReceived seq = false)
    (htotal : w'.totalReceived = w.totalReceived + 1) (hseq : w'.hasReceived seq = true)
    (hothers : w.offset seq < n → ∀ t < 2 ^ 24, t ≠ seq → w'.hasReceived t = w.hasReceived t) : w.Classified seq := by
  refine ⟨?_, ?_, ?_, ?_, ?_, ?_, w.inBounds seq⟩ <;> rw [he]
  · exact iff_of_false (by simp) (not_old_of_not_tooOld ho)
  · exact fun hc => (by cases hc)
  · exact iff_of_false (by simp) (by simp [hnot])
  · exact fun hc => (by cases hc)
  · exact fun _ _ => ⟨rfl, htotal, hseq⟩
  · exact hothers

/-- reachable or not -/
theorem classified (w : RecvWindow n) (h1 : 1 ≤ n) (hn : n ≤ 2 ^ 23) {seq : Nat} (hs : seq < 2 ^ 24) :
    w.Classified seq := by
  rcases markReceived_cases w seq h1 with ⟨ho, he⟩ | ⟨ho, hoff, he⟩ | ⟨ho, hoff, hbit, he⟩ | ⟨ho, hoff, hbit, he⟩
  · -- too old
    have hold := (w.tooOld_iff seq).1 ho
    have hnot : w.hasReceived seq = false := by rw [hasReceived, if_pos hold.2]
    refine ⟨?_, ?_, ?_, ?_, ?_, ?_, w.inBounds seq⟩ <;> rw [he]
    · exact iff_of_true rfl hold
    · exact fun _ => rfl
    · exact iff_of_false (by simp) (by simp [hnot])
    · exact fun hc => (by cases hc)
    · exact fun hc _ => absurd hold hc
    · exact fun _ _ _ _ => rfl
  · -- past the window
    exact classified_of_taken ho he (w.hasReceived_of_past hoff) rfl (w.hasReceived_reset seq h1 hn)
      fun hin => absurd hin (Nat.not_lt.2 hoff)
  · -- its bit is set
    have hhas : w.hasReceived seq = true := by rw [hasReceived_of_offset w hn hoff, hbit]
    refine ⟨?_, ?_, ?_, ?_, ?_, ?_, w.inBounds seq⟩ <;> rw [he]
    · exact iff_of_false (by simp) (not_old_of_not_tooOld ho)
    · exact fun hc => (by cases hc)
    · exact iff_of_true rfl hhas
    · exact fun _ => rfl
    · intro _ hnot
      rw [hhas] at hnot
      cases hnot
    · exact fun _ _ _ _ => rfl
  · -- its bit is not set
    have hnot : w.hasReceived seq = false := by rw [hasReceived_of_offset w hn hoff, hbit]
    exact classified_of_taken ho he hnot rfl (w.hasReceived_accept hn hoff)
      fun _ t ht hne => w.hasReceived_accept_other hs ht hne hn hoff

/-- **`mark_received` in every reachable window**, of every capacity from 1 to 2^23 and for every 24-bit number. -/
theorem mark_received_classified (n : Nat) (h1 : 1 ≤ n) (hn : n ≤ 2 ^ 23) (calls : List Call) (seq : Nat)
    (hs : seq < 2 ^ 24) : (afterCalls n calls).Classified seq := (afterCalls n calls).classified h1 hn hs

/-- a window of capacity 3 that was advanced past its first number -/
theorem mark_received_classified_three :
    (afterCalls 3 [.markReceived 0, .advanceBase, .markReceived 2]).Classified 2 :=
  mark_received_classified 3 (by decide) (by decide) _ 2 (by decide)

end RecvWindow

end RakNet
