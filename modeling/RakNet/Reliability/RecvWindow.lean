/-
Receive window (`src/reliability/recv_window.rs`): duplicate detection over a bit vector that slides.

`RecvWindow n` is a window of capacity n. The bit vector has length n by its type, so every index the code uses is
proved in bounds where it is used.

`mark_received` calls `slide_to` only for a number at least n past the base, so there it always takes its "complete
reset" branch: the bits are cleared and the base becomes the new number minus n/2. The new window reaches back over numbers
that were already accepted, and forgets them. `advance_base` slides by the number of bits set from the base on, and takes
that branch when all are.

- `markReceived_cases`: the four things a call can do; `advanceBase_cases`: the three things `advance_base` can do.
- `markReceived_eq_true_iff`: a number is accepted exactly when it is neither too old nor already received.
- `duplicates_filtered_iff`: numbers are accepted at most once along the runs of arrivals below 2^23 in which no reset
  reaches back over an accepted number; after an arrival that does reach back, one more is accepted a second time.
-/
import RakNet.Lib.Machine
import RakNet.Protocol.UInt24

namespace RakNet

open Lib

structure RecvWindow (n : Nat) where
  /-- bit i stands for sequence number base + i -/
  received : Vector Bool n
  baseSeq : Nat
  highestSeq : Nat
  totalReceived : Nat
  totalDuplicates : Nat
  totalOutOfOrder : Nat
deriving DecidableEq

namespace RecvWindow

variable {n : Nat}

def withCapacity (n : Nat) : RecvWindow n := ⟨Vector.replicate n false, 0, 0, 0, 0, 0⟩

/-- `RecvWindow::new` -/
def new : RecvWindow 2048 := withCapacity 2048

/-- the offset of a number from the base, masked to 24 bits -/
def offset (w : RecvWindow n) (seq : Nat) : Nat := wrappingSub seq w.baseSeq &&& mask24

/-- `slide_to` -/
def slideTo (w : RecvWindow n) (newSeq : Nat) : RecvWindow n :=
  let shift := w.offset newSeq
  if shift = 0 then w
  else if n ≤ shift then
    -- "Complete reset - new window doesn't overlap old one"
    { w with received := Vector.replicate n false, baseSeq := wrappingSub newSeq (n / 2 % 2 ^ 32) &&& mask24 }
  else
    -- `copy_within(shift.., 0)`, then clear the last `shift` bits
    { w with
      received := Vector.ofFn fun i => if h : i.val + shift < n then w.received[i.val + shift] else false
      baseSeq := wrappingAdd w.baseSeq shift &&& mask24 }

/-- the tail of `mark_received` for a number inside the window that was not seen: set its bit, count it, note whether
it came out of order, update the highest number -/
def accept (w : RecvWindow n) (seq : Nat) (h : w.offset seq < n) : RecvWindow n :=
  { w with
    received := w.received.set (w.offset seq) true
    totalReceived := w.totalReceived + 1
    totalOutOfOrder :=
      if seq != wrappingAdd w.highestSeq 1 && decide (1 < w.totalReceived + 1) then w.totalOutOfOrder + 1
      else w.totalOutOfOrder
    highestSeq := if seqLessThan w.highestSeq seq || w.totalReceived + 1 == 1 then seq else w.highestSeq }

/-- the same tail after a slide, which does not look at the order -/
def acceptSlid (w : RecvWindow n) (seq : Nat) (h : w.offset seq < n) : RecvWindow n :=
  { w with
    received := w.received.set (w.offset seq) true
    totalReceived := w.totalReceived + 1
    highestSeq := if seqLessThan w.highestSeq seq then seq else w.highestSeq }

/-- `mark_received`: `some true` for a new number, `some false` for a duplicate, `none` for one too old -/
def markReceived (w : RecvWindow n) (seq : Nat) : Option Bool × RecvWindow n :=
  if seqLessThan seq w.baseSeq && decide (0 < w.totalReceived) then (none, w)
  else if h : w.offset seq < n then
    if w.received[w.offset seq] then (some false, { w with totalDuplicates := w.totalDuplicates + 1 })
    else (some true, w.accept seq h)
  else
    let slid := w.slideTo seq
    if h' : slid.offset seq < n then (some true, slid.acceptSlid seq h')
    else (none, slid)

/-- `has_received` -/
def hasReceived (w : RecvWindow n) (seq : Nat) : Bool :=
  if seqLessThan seq w.baseSeq then false
  else if h : w.offset seq < n then w.received[w.offset seq]
  else false

/-- the offset of the first number from the base on that was not received -/
def contiguous (w : RecvWindow n) : Nat := w.received.toList.findIdx fun bit => !bit

/-- `advance_base` -/
def advanceBase (w : RecvWindow n) : RecvWindow n :=
  if 0 < w.contiguous then w.slideTo (wrappingAdd w.baseSeq (w.contiguous % 2 ^ 32)) else w

/-- `get_missing`, for a capacity of at least one -/
def getMissing (w : RecvWindow n) : List Nat :=
  if w.highestSeq = w.baseSeq ∧ w.totalReceived = 0 then []
  else
    let endOffset := min (w.offset w.highestSeq) (n - 1)
    ((List.range (endOffset + 1)).filter fun offset => decide (w.received[offset]? = some false)).map fun offset =>
      wrappingAdd w.baseSeq offset &&& mask24

/-! ## What a call does -/

/-- before the base of a window that has seen a packet -/
def tooOld (w : RecvWindow n) (seq : Nat) : Bool := seqLessThan seq w.baseSeq && decide (0 < w.totalReceived)

/-- what a number past the end of the window leaves -/
def reset (w : RecvWindow n) (seq : Nat) (h : n / 2 < n) : RecvWindow n :=
  { w with
    received := (Vector.replicate n false).set (n / 2) true
    baseSeq := (seq + (2 ^ 32 - n / 2)) % 2 ^ 24
    totalReceived := w.totalReceived + 1
    highestSeq := if seqLessThan w.highestSeq seq then seq else w.highestSeq }

@[simp] theorem accept_received (w : RecvWindow n) (seq : Nat) (h : w.offset seq < n) :
    (w.accept seq h).received = w.received.set (w.offset seq) true := rfl

@[simp] theorem accept_baseSeq (w : RecvWindow n) (seq : Nat) (h : w.offset seq < n) :
    (w.accept seq h).baseSeq = w.baseSeq := rfl

@[simp] theorem accept_totalReceived (w : RecvWindow n) (seq : Nat) (h : w.offset seq < n) :
    (w.accept seq h).totalReceived = w.totalReceived + 1 := rfl

@[simp] theorem reset_received (w : RecvWindow n) (seq : Nat) (h : n / 2 < n) :
    (w.reset seq h).received = (Vector.replicate n false).set (n / 2) true := rfl

@[simp] theorem reset_baseSeq (w : RecvWindow n) (seq : Nat) (h : n / 2 < n) :
    (w.reset seq h).baseSeq = (seq + (2 ^ 32 - n / 2)) % 2 ^ 24 := rfl

@[simp] theorem reset_totalReceived (w : RecvWindow n) (seq : Nat) (h : n / 2 < n) :
    (w.reset seq h).totalReceived = w.totalReceived + 1 := rfl

theorem offset_eq (w : RecvWindow n) (seq : Nat) : w.offset seq = (seq + (2 ^ 32 - w.baseSeq)) % 2 ^ 24 :=
  wrappingSub_and_mask24 _ _

theorem offset_lt (w : RecvWindow n) (seq : Nat) : w.offset seq < 2 ^ 24 := by
  rw [offset_eq]
  exact Nat.mod_lt _ (by norm_num)

theorem half_lt {n : Nat} (h : 1 ≤ n) : n / 2 < n := Nat.div_lt_self h (by norm_num)

theorem slideTo_of_le (w : RecvWindow n) (seq : Nat) (h1 : 1 ≤ n) (h : n ≤ w.offset seq) :
    w.slideTo seq = { w with received := Vector.replicate n false, baseSeq := (seq + (2 ^ 32 - n / 2)) % 2 ^ 24 } := by
  have hlt := w.offset_lt seq
  have h0 : w.offset seq ≠ 0 := by omega
  have hm : n / 2 % 2 ^ 32 = n / 2 := Nat.mod_eq_of_lt (by omega)
  simp only [slideTo, h0, h, if_true, if_false, hm, wrappingSub_and_mask24]

/-- the window after a number past its end: only that number is remembered, in the middle -/
theorem acceptSlid_slideTo (w : RecvWindow n) (seq : Nat) (h1 : 1 ≤ n) (h : n ≤ w.offset seq) :
    ∃ h', (w.slideTo seq).acceptSlid seq h' = w.reset seq (half_lt h1) := by
  have hlt := w.offset_lt seq
  have hoff : (w.slideTo seq).offset seq = n / 2 := by
    rw [slideTo_of_le w seq h1 h, offset_eq]
    show (seq + (2 ^ 32 - (seq + (2 ^ 32 - n / 2)) % 2 ^ 24)) % 2 ^ 24 = n / 2
    omega
  have hin : (w.slideTo seq).offset seq < n := hoff ▸ half_lt h1
  refine ⟨hin, ?_⟩
  simp only [acceptSlid, hoff]
  simp only [slideTo_of_le w seq h1 h]
  rfl

/-- **The four things `mark_received` can do.** -/
theorem markReceived_cases (w : RecvWindow n) (seq : Nat) (h1 : 1 ≤ n) :
    (w.tooOld seq = true ∧ w.markReceived seq = (none, w)) ∨
    (w.tooOld seq = false ∧ n ≤ w.offset seq ∧ w.markReceived seq = (some true, w.reset seq (half_lt h1))) ∨
    (w.tooOld seq = false ∧ ∃ h : w.offset seq < n, w.received[w.offset seq] = true ∧
      w.markReceived seq = (some false, { w with totalDuplicates := w.totalDuplicates + 1 })) ∨
    (w.tooOld seq = false ∧ ∃ h : w.offset seq < n, w.received[w.offset seq] = false ∧
      w.markReceived seq = (some true, w.accept seq h)) := by
  unfold markReceived tooOld
  split_ifs with hold hoff hbit
  · exact Or.inl ⟨hold, rfl⟩
  · exact Or.inr (Or.inr (Or.inl ⟨by simpa using hold, hoff, hbit, rfl⟩))
  · exact Or.inr (Or.inr (Or.inr ⟨by simpa using hold, hoff, by simpa using hbit, rfl⟩))
  · obtain ⟨hslid, he⟩ := acceptSlid_slideTo w seq h1 (by omega)
    exact Or.inr (Or.inl ⟨by simpa using hold, by omega, by simp only [dif_pos hslid, he]⟩)

theorem markReceived_reset {w : RecvWindow n} {seq : Nat} (h1 : 1 ≤ n) (hold : w.tooOld seq = false)
    (hoff : n ≤ w.offset seq) : w.markReceived seq = (some true, w.reset seq (half_lt h1)) := by
  rcases markReceived_cases w seq h1 with ⟨ho, -⟩ | ⟨-, -, he⟩ | ⟨-, ho, -⟩ | ⟨-, ho, -⟩
  · rw [hold] at ho
    cases ho
  · exact he
  · omega
  · omega

theorem tooOld_withCapacity (seq : Nat) : (withCapacity n).tooOld seq = false := by simp [tooOld, withCapacity]

/-- a fresh window accepts its first packet, whatever its number -/
theorem markReceived_withCapacity (h1 : 1 ≤ n) (seq : Nat) :
    (n ≤ (withCapacity n).offset seq ∧
      (withCapacity n).markReceived seq = (some true, (withCapacity n).reset seq (half_lt h1))) ∨
    ∃ h : (withCapacity n).offset seq < n,
      (withCapacity n).markReceived seq = (some true, (withCapacity n).accept seq h) := by
  rcases markReceived_cases (withCapacity n) seq h1 with ⟨hold, -⟩ | ⟨-, hpast, he⟩ | ⟨-, hin, hbit, -⟩ | ⟨-, hin, -, he⟩
  · rw [tooOld_withCapacity] at hold
    cases hold
  · exact Or.inl ⟨hpast, he⟩
  · simp [withCapacity] at hbit
  · exact Or.inr ⟨hin, he⟩

theorem offset_withCapacity {seq : Nat} (hs : seq < 2 ^ 24) : (withCapacity n).offset seq = seq := by
  rw [offset_eq]
  show (seq + (2 ^ 32 - 0)) % 2 ^ 24 = seq
  omega

/-- a number that is not too old and whose bit is clear, if it has one, is accepted -/
theorem markReceived_of_clear {w : RecvWindow n} {seq : Nat} (h1 : 1 ≤ n) (hold : w.tooOld seq = false)
    (hclear : ∀ h : w.offset seq < n, w.received[w.offset seq] = false) : (w.markReceived seq).1 = some true := by
  rcases markReceived_cases w seq h1 with ⟨ho, -⟩ | ⟨-, -, he⟩ | ⟨-, hin, hbit, -⟩ | ⟨-, _, -, he⟩
  · rw [hold] at ho
    cases ho
  · rw [he]
  · rw [hclear hin] at hbit
    cases hbit
  · rw [he]

/-- after a reset only the number that came is remembered -/
theorem received_reset_of_ne (w : RecvWindow n) (seq : Nat) (h : n / 2 < n) {i : Nat} (hi : i < n) (hne : i ≠ n / 2) :
    (w.reset seq h).received[i] = false := by
  rw [reset_received, Vector.getElem_set_ne _ _ (Ne.symm hne), Vector.getElem_replicate]

/-- a number is before the base when it is half the range or more past it -/
theorem seqLessThan_base_iff (w : RecvWindow n) (seq : Nat) :
    seqLessThan seq w.baseSeq = true ↔ 2 ^ 23 ≤ w.offset seq := by
  rw [seqLessThan_iff, offset_eq]

/-! ## Advancing the base -/

theorem contiguous_le (w : RecvWindow n) : w.contiguous ≤ n := by
  have hle : w.contiguous ≤ w.received.toList.length := List.findIdx_le_length
  rwa [Vector.length_toList] at hle

theorem contiguous_bit (w : RecvWindow n) {i : Nat} (hi : i < w.contiguous) (h : i < n) : w.received[i] = true := by
  have hbit := List.not_of_lt_findIdx hi
  simpa using hbit

theorem contiguous_stop (w : RecvWindow n) (h : w.contiguous < n) : w.received[w.contiguous] = false := by
  have hlt : w.contiguous < w.received.toList.length := by rwa [Vector.length_toList]
  have hbit : (!w.received.toList.get ⟨w.contiguous, hlt⟩) = true := List.findIdx_getElem
  simpa using hbit

/-- **The three things `advance_base` can do**: nothing, a partial slide, or, if every bit is set, a reset. -/
theorem advanceBase_cases (w : RecvWindow n) (hb : w.baseSeq < 2 ^ 24) (hn : n ≤ 2 ^ 23) :
    (w.contiguous = 0 ∧ w.advanceBase = w) ∨
    (0 < w.contiguous ∧ w.contiguous < n ∧ w.advanceBase =
      { w with
        received := Vector.ofFn fun i =>
          if h : i.val + w.contiguous < n then w.received[i.val + w.contiguous] else false
        baseSeq := (w.baseSeq + w.contiguous) % 2 ^ 24 }) ∨
    (0 < n ∧ w.contiguous = n ∧ w.advanceBase =
      { w with received := Vector.replicate n false, baseSeq := (w.baseSeq + n - n / 2) % 2 ^ 24 }) := by
  have hle := w.contiguous_le
  have hk : wrappingAdd w.baseSeq (w.contiguous % 2 ^ 32) = w.baseSeq + w.contiguous := by
    rw [wrappingAdd]
    omega
  have hshift : w.offset (w.baseSeq + w.contiguous) = w.contiguous := by
    rw [offset_eq]
    omega
  unfold advanceBase
  rw [hk]
  by_cases h0 : w.contiguous = 0
  · exact Or.inl ⟨h0, if_neg (by omega)⟩
  rw [if_pos (by omega)]
  unfold slideTo
  rw [hshift]
  by_cases hfull : n ≤ w.contiguous
  · refine Or.inr (Or.inr ⟨by omega, by omega, ?_⟩)
    have hmod : n / 2 % 2 ^ 32 = n / 2 := Nat.mod_eq_of_lt (by omega)
    have hbase : wrappingSub (w.baseSeq + w.contiguous) (n / 2) &&& mask24 = (w.baseSeq + n - n / 2) % 2 ^ 24 := by
      rw [wrappingSub_and_mask24]
      omega
    simp only [if_neg h0, if_pos hfull, hmod, hbase]
  · refine Or.inr (Or.inl ⟨by omega, by omega, ?_⟩)
    have hbase : wrappingAdd w.baseSeq w.contiguous &&& mask24 = (w.baseSeq + w.contiguous) % 2 ^ 24 := by
      rw [and_mask24, wrappingAdd]
      omega
    simp only [if_neg h0, if_neg hfull, hbase]

/-! ## Acceptance -/

/-- a window that has counted no packet has no bit set -/
def Untouched (w : RecvWindow n) : Prop := w.totalReceived = 0 → ∀ i (h : i < n), w.received[i] = false

theorem untouched_new : new.Untouched := by
  intro _ i h
  simp [new, withCapacity]

theorem Untouched.markReceived {w : RecvWindow n} (hw : w.Untouched) (seq : Nat) (h1 : 1 ≤ n) :
    (w.markReceived seq).2.Untouched := by
  rcases markReceived_cases w seq h1 with ⟨-, he⟩ | ⟨-, -, he⟩ | ⟨-, _, -, he⟩ | ⟨-, _, -, he⟩ <;> rw [he]
  · exact hw
  · intro h0
    simp at h0
  · exact hw
  · intro h0
    simp at h0

/-- **Acceptance.** A number is accepted exactly when it is neither too old nor already received. -/
theorem markReceived_eq_true_iff {w : RecvWindow n} (hw : w.Untouched) (seq : Nat) (h1 : 1 ≤ n) :
    (w.markReceived seq).1 = some true ↔ w.tooOld seq = false ∧ w.hasReceived seq = false := by
  rcases markReceived_cases w seq h1 with ⟨ho, he⟩ | ⟨ho, hoff, he⟩ | ⟨ho, hoff, hbit, he⟩ | ⟨ho, hoff, hbit, he⟩ <;>
    rw [he, ho]
  · simp
  · simp only [hasReceived, dif_neg (show ¬ w.offset seq < n by omega)]
    split_ifs <;> simp
  · -- a set bit: the window has counted a packet, so a number that is not too old is not before the base
    have hless : seqLessThan seq w.baseSeq = false := by
      by_contra hl
      simp only [tooOld, Bool.not_eq_false] at ho hl
      rw [hl, Bool.true_and, decide_eq_false_iff_not] at ho
      have := hw (by omega) _ hoff
      rw [hbit] at this
      cases this
    simp [hasReceived, hless, hoff, hbit]
  · simp only [hasReceived, dif_pos hoff, hbit]
    split_ifs <;> simp

theorem tooOld_eq (w : RecvWindow n) (seq : Nat) (hb : w.baseSeq < 2 ^ 23) (hs : seq < 2 ^ 23) :
    w.tooOld seq = (decide (seq < w.baseSeq) && decide (0 < w.totalReceived)) := by
  rw [tooOld, seqLessThan_of_lt hs hb]

/-- below 2^23 a number at or past the base sits at its distance from the base -/
theorem offset_of_le (w : RecvWindow n) {seq : Nat} (hs : seq < 2 ^ 23) (hle : w.baseSeq ≤ seq) :
    w.offset seq = seq - w.baseSeq := by
  rw [offset_eq]; omega

/-! ## Runs of arrivals -/

/-- a window with the numbers it has accepted so far, oldest first -/
structure Track (n : Nat) where
  window : RecvWindow n
  accepted : List Nat

namespace Track

def init (n : Nat) : Track n := ⟨withCapacity n, []⟩

/-- one arrival -/
def step (t : Track n) (seq : Nat) : Track n :=
  let (answer, window) := t.window.markReceived seq
  ⟨window, if answer = some true then t.accepted ++ [seq] else t.accepted⟩

theorem step_accepted {t : Track n} {seq : Nat} (h : (t.window.markReceived seq).1 = some true) :
    t.step seq = ⟨(t.window.markReceived seq).2, t.accepted ++ [seq]⟩ := by
  simp only [step, h, if_true]

theorem step_refused {t : Track n} {seq : Nat} (h : (t.window.markReceived seq).1 ≠ some true) :
    t.step seq = ⟨(t.window.markReceived seq).2, t.accepted⟩ := by
  simp only [step, h, if_false]

/-- the base stays below 2^23, an untouched window starts at 0, set bits stand for accepted numbers -/
structure Sound (t : Track n) : Prop where
  base_lt : t.window.baseSeq < 2 ^ 23
  fresh : t.window.totalReceived = 0 → t.window.baseSeq = 0
  lt : ∀ a ∈ t.accepted, a < 2 ^ 23
  bits : ∀ i (h : i < n), t.window.received[i] = true → t.window.baseSeq + i ∈ t.accepted

theorem sound_init (n : Nat) : (init n).Sound where
  base_lt := by simp [init, withCapacity]
  fresh := fun _ => rfl
  lt := by simp [init]
  bits := by simp [init, withCapacity]

/-- a number that is not too old lies at or past the base -/
theorem Sound.base_le {t : Track n} (h : t.Sound) {seq : Nat} (hs : seq < 2 ^ 23)
    (hold : t.window.tooOld seq = false) : t.window.baseSeq ≤ seq := by
  rw [tooOld_eq _ _ h.base_lt hs] at hold
  by_cases h0 : t.window.totalReceived = 0
  · rw [h.fresh h0]; omega
  · by_contra hlt
    simp only [Bool.and_eq_false_iff, decide_eq_false_iff_not] at hold
    omega

theorem step_sound {t : Track n} (h1 : 1 ≤ n) (hn : n ≤ 2 ^ 23) (h : t.Sound) {seq : Nat} (hs : seq < 2 ^ 23) :
    (t.step seq).Sound := by
  have hlt : ∀ a ∈ t.accepted ++ [seq], a < 2 ^ 23 := by
    intro a ha
    rcases List.mem_append.1 ha with ha | ha
    · exact h.lt a ha
    · rw [List.mem_singleton.1 ha]; exact hs
  rcases markReceived_cases t.window seq h1 with ⟨-, he⟩ | ⟨hold, hoff, he⟩ | ⟨-, -, -, he⟩ | ⟨hold, hoff, -, he⟩ <;>
    simp only [step, he, if_true, if_false, reduceCtorEq, Option.some.injEq, Bool.false_eq_true]
  · exact h
  · -- a reset: the only set bit is the new number's, n/2 past the new base
    have hle := h.base_le hs hold
    rw [offset_of_le _ hs hle] at hoff
    have hb : (seq + (2 ^ 32 - n / 2)) % 2 ^ 24 = seq - n / 2 := by omega
    refine ⟨by simp only [reset_baseSeq, hb]; omega, by simp, hlt, ?_⟩
    intro i hi hbit
    simp only [reset_received, Vector.getElem_set, Vector.getElem_replicate] at hbit
    split_ifs at hbit with hi2
    simp only [reset_baseSeq, hb, List.mem_append, List.mem_singleton]
    omega
  · exact ⟨h.base_lt, h.fresh, h.lt, h.bits⟩
  · have hle := h.base_le hs hold
    refine ⟨h.base_lt, by simp, hlt, ?_⟩
    intro i hi hbit
    simp only [accept_received, Vector.getElem_set, offset_of_le _ hs hle] at hbit
    simp only [accept_baseSeq, List.mem_append, List.mem_singleton]
    split_ifs at hbit with hi2
    · right; omega
    · exact Or.inl (h.bits i hi hbit)

/-- no number is accepted twice, and every accepted number is before the base or has its bit set -/
structure Exact (t : Track n) : Prop where
  nodup : t.accepted.Nodup
  remembered : ∀ a ∈ t.accepted, a < t.window.baseSeq ∨
    ∃ h : a - t.window.baseSeq < n, t.window.received[a - t.window.baseSeq] = true

theorem exact_init (n : Nat) : (init n).Exact := ⟨by simp [init], by simp [init]⟩

/-- **The condition.** An arrival past the end of the window finds every remembered number more than n/2 before it, so
that the reset, which moves the base to n/2 before it, leaves them all behind. -/
def Safe (t : Track n) (seq : Nat) : Prop :=
  t.window.tooOld seq = false → n ≤ t.window.offset seq →
    ∀ i (h : i < n), t.window.received[i] = true → i + n / 2 < t.window.offset seq

instance (t : Track n) (seq : Nat) : Decidable (t.Safe seq) :=
  inferInstanceAs (Decidable (_ = false → _ ≤ _ → ∀ i, ∀ h : i < n, t.window.received[i] = true → _ < _))

/-- an accepted number was not accepted before, in an exact track -/
theorem Exact.not_mem {t : Track n} (h : t.Sound) (hx : t.Exact) {seq : Nat} (hs : seq < 2 ^ 23)
    (hold : t.window.tooOld seq = false)
    (hnew : ∀ hoff : t.window.offset seq < n, t.window.received[t.window.offset seq] = false) :
    seq ∉ t.accepted := by
  intro hm
  have hle := h.base_le hs hold
  rcases hx.remembered seq hm with hlt | ⟨hoff, hbit⟩
  · omega
  · have e := offset_of_le t.window hs hle
    have := hnew (e ▸ hoff)
    simp only [e] at this
    rw [hbit] at this
    cases this

/-- one more arrival after an exact track is never accepted twice, safe or not -/
theorem step_nodup {t : Track n} (h1 : 1 ≤ n) (h : t.Sound) (hx : t.Exact) {seq : Nat}
    (hs : seq < 2 ^ 23) : (t.step seq).accepted.Nodup := by
  have hnodup : seq ∉ t.accepted → (t.accepted ++ [seq]).Nodup := fun hm =>
    List.nodup_append.2 ⟨hx.nodup, by simp, by rintro a ha b hb rfl; simp at hb; subst hb; exact hm ha⟩
  rcases markReceived_cases t.window seq h1 with ⟨-, he⟩ | ⟨hold, hoff, he⟩ | ⟨-, -, -, he⟩ |
    ⟨hold, hoff, hbit, he⟩ <;>
    simp only [step, he, if_true, if_false, reduceCtorEq, Option.some.injEq, Bool.false_eq_true]
  · exact hx.nodup
  · exact hnodup (hx.not_mem h hs hold fun hoff' => by omega)
  · exact hx.nodup
  · exact hnodup (hx.not_mem h hs hold fun _ => hbit)

theorem step_exact {t : Track n} (h1 : 1 ≤ n) (hn : n ≤ 2 ^ 23) (h : t.Sound) (hx : t.Exact) {seq : Nat}
    (hs : seq < 2 ^ 23) (hsafe : t.Safe seq) : (t.step seq).Exact := by
  refine ⟨step_nodup h1 h hx hs, ?_⟩
  rcases markReceived_cases t.window seq h1 with ⟨-, he⟩ | ⟨hold, hoff, he⟩ | ⟨-, -, -, he⟩ | ⟨hold, hoff, -, he⟩ <;>
    simp only [step, he, if_true, if_false, reduceCtorEq, Option.some.injEq, Bool.false_eq_true]
  · exact hx.remembered
  · have e := offset_of_le t.window hs (h.base_le hs hold)
    have hb : (seq + (2 ^ 32 - n / 2)) % 2 ^ 24 = seq - n / 2 := by omega
    intro a ha
    simp only [reset_baseSeq, hb, reset_received, Vector.getElem_set, Vector.getElem_replicate]
    rcases List.mem_append.1 ha with ha | ha
    · -- an older number: before the old base, or at a set bit, which the condition puts before the new base
      left
      rcases hx.remembered a ha with hlt | ⟨hi, hbit⟩
      · omega
      · have := hsafe hold hoff _ hi hbit; omega
    · right
      rw [List.mem_singleton.1 ha]
      have := half_lt h1
      exact ⟨by omega, by simp; omega⟩
  · exact hx.remembered
  · have e := offset_of_le t.window hs (h.base_le hs hold)
    intro a ha
    simp only [accept_baseSeq, accept_received, Vector.getElem_set, e]
    rcases List.mem_append.1 ha with ha | ha
    · rcases hx.remembered a ha with hlt | ⟨hi, hb⟩
      · exact Or.inl hlt
      · exact Or.inr ⟨hi, by simp [hb]⟩
    · right
      rw [List.mem_singleton.1 ha]
      exact ⟨by omega, by simp⟩

/-- arrivals below 2^23 that are safe where they happen -/
def SafeRun (t : Track n) (seqs : List Nat) : Prop := Machine.Steps step Safe t seqs

/-- soundness along any run of arrivals below 2^23 -/
theorem run_sound {t : Track n} (h1 : 1 ≤ n) (hn : n ≤ 2 ^ 23) (h : t.Sound) (seqs : List Nat)
    (hs : ∀ s ∈ seqs, s < 2 ^ 23) : (Machine.run step t seqs).Sound :=
  @Machine.run_inv_of_mem (Track n) Nat step (· < 2 ^ 23) Sound (fun _ _ ht hx => step_sound h1 hn ht hx) t seqs h hs

theorem run_exact {t : Track n} (h1 : 1 ≤ n) (hn : n ≤ 2 ^ 23) (h : t.Sound) (hx : t.Exact) (seqs : List Nat)
    (hs : ∀ s ∈ seqs, s < 2 ^ 23) (hsafe : t.SafeRun seqs) : (Machine.run step t seqs).Exact := by
  induction seqs generalizing t with
  | nil => exact hx
  | cons s seqs ih =>
    have hs0 := hs s List.mem_cons_self
    exact ih (step_sound h1 hn h hs0) (step_exact h1 hn h hx hs0 hsafe.1)
      (fun x hx => hs x (List.mem_cons_of_mem s hx)) hsafe.2

/-- an unsafe arrival forgets an accepted number, which the window then accepts again -/
theorem step_forgets {t : Track n} (h1 : 1 ≤ n) (hn : n ≤ 2 ^ 23) (h : t.Sound) {seq : Nat} (hs : seq < 2 ^ 23)
    (hrun : ¬ t.Safe seq) : ∃ x < 2 ^ 23, ¬ ((t.step seq).step x).accepted.Nodup := by
  simp only [Safe, not_forall, not_lt] at hrun
  obtain ⟨hold, hoff, i, hi, hbit, hback⟩ := hrun
  have hmem := h.bits i hi hbit
  have hx := h.lt _ hmem
  refine ⟨t.window.baseSeq + i, hx, ?_⟩
  have hle := h.base_le hs hold
  -- the reset puts the base at seq - n/2, at or before the forgotten number, and clears its bit
  have hreset := markReceived_reset h1 hold hoff
  rw [offset_of_le _ hs hle] at hoff hback
  have hb : (t.window.reset seq (half_lt h1)).baseSeq = seq - n / 2 := by
    rw [reset_baseSeq]; omega
  have hold' : (t.window.reset seq (half_lt h1)).tooOld (t.window.baseSeq + i) = false := by
    rw [tooOld_eq _ _ (by omega) hx, hb, decide_eq_false (by omega)]
    rfl
  have hoff' := offset_of_le (t.window.reset seq (half_lt h1)) hx (by omega)
  have hagain : ((t.window.reset seq (half_lt h1)).markReceived (t.window.baseSeq + i)).1 = some true :=
    markReceived_of_clear h1 hold' fun ho => received_reset_of_ne _ _ _ ho (by omega)
  simp only [step, hreset, hagain, if_true, List.append_assoc]
  intro hnd
  have := (List.nodup_append.1 hnd).2.2 _ hmem _ (List.mem_append_right [seq] (List.mem_singleton_self _))
  exact this rfl

end Track

/-! ## Duplicate filtering -/

/-- **Duplicates are filtered exactly along the safe runs.** On a fresh window of capacity 2048 and arrivals below 2^23:
if every arrival is safe where it happens, no number is accepted twice. And if some arrival is not, then at some point
of the run one further arrival is accepted although that number had been accepted before. -/
theorem duplicates_filtered_iff (seqs : List Nat) (hs : ∀ s ∈ seqs, s < 2 ^ 23) :
    ((Track.init 2048).SafeRun seqs → (Machine.run Track.step (Track.init 2048) seqs).accepted.Nodup) ∧
    ((Track.init 2048).SafeRun seqs ↔
      ∀ pre, pre <+: seqs → ∀ x < 2 ^ 23,
        (Machine.run Track.step (Track.init 2048) (pre ++ [x])).accepted.Nodup) := by
  have h1 : 1 ≤ 2048 := by norm_num
  have hn : 2048 ≤ 2 ^ 23 := by norm_num
  have s0 := Track.sound_init 2048
  refine ⟨fun hsafe => (Track.run_exact h1 hn s0 (Track.exact_init _) seqs hs hsafe).nodup, ?_, ?_⟩
  · intro hsafe pre hpre x hx
    have hsp : ∀ s ∈ pre, s < 2 ^ 23 := fun s h => hs s (hpre.subset h)
    rw [Machine.run_snoc]
    exact Track.step_nodup h1 (Track.run_sound h1 hn s0 pre hsp)
      (Track.run_exact h1 hn s0 (Track.exact_init _) pre hsp (hsafe.left hpre)) hx
  · intro hall
    -- the first unsafe arrival, if any, is followed by a second acceptance
    have key : ∀ pre, pre <+: seqs → (Track.init 2048).SafeRun pre := by
      intro pre
      induction pre using List.reverseRecOn with
      | nil => intro _; trivial
      | append_singleton pre seq ih =>
        intro hpre
        have hpre' : pre <+: seqs := (List.prefix_append pre [seq]).trans hpre
        refine Machine.steps_append.2 ⟨ih hpre', ?_, trivial⟩
        by_contra hrun
        have hsp : ∀ s ∈ pre, s < 2 ^ 23 := fun s h => hs s (hpre'.subset h)
        obtain ⟨x, hx, hdup⟩ := Track.step_forgets h1 hn (Track.run_sound h1 hn s0 pre hsp)
          (hs seq (hpre.subset (by simp))) hrun
        apply hdup
        have := hall (pre ++ [seq]) hpre x hx
        rwa [Machine.run_snoc, Machine.run_snoc] at this
    exact key seqs (List.prefix_refl _)

/-- a safe reset: 5000 moves the base to 3976, far past 7, so the second 7 is refused -/
theorem duplicates_filtered_safe_reset :
    (Machine.run Track.step (Track.init 2048) [7, 5000, 7]).accepted.Nodup :=
  (duplicates_filtered_iff [7, 5000, 7] (by decide)).1
    ⟨by decide, fun _ _ i h _ => by
      rw [show ((Track.init 2048).step 7).window.offset 5000 = 5000 by decide]; omega, by decide, trivial⟩

/-- **A duplicate is accepted.** 2047 is accepted, 2048 resets the window to the base 1024 and clears it, and the second
2047 is accepted again. -/
theorem duplicate_accepted_after_reset :
    (Machine.run Track.step (Track.init 2048) [2047, 2048, 2047]).accepted = [2047, 2048, 2047] ∧
    ¬ ∀ seqs : List Nat, (∀ s ∈ seqs, s < 2 ^ 23) →
      (Machine.run Track.step (Track.init 2048) seqs).accepted.Nodup := by
  have hrun : (Machine.run Track.step (Track.init 2048) [2047, 2048, 2047]).accepted = [2047, 2048, 2047] := by
    decide +kernel
  refine ⟨hrun, ?_⟩
  intro h
  have := h [2047, 2048, 2047] (by decide)
  rw [hrun] at this
  exact absurd this (by decide)

end RecvWindow

end RakNet
