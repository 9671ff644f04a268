/-
ACK and NACK range lists (`src/reliability/ack.rs`): compression of sequence numbers into ranges, and the packets that
carry them.

`insert` searches for the first range that holds the number or starts after it, then extends a neighbour, bridges two,
or puts a new single range. A list is read through the bounds of its ranges as a list of closed intervals; the invariant
`Inv` is that the intervals are the maximal runs of the set they cover, and that no `Range` holds one number only.

- `insert_spec`: one insertion keeps the invariant and adds exactly the inserted number.
- `ranges_maximal_runs`: after any insertions the list is the unique maximal-run decomposition of the inserted set.
- `decodeAckNack_encodeAck`: a decoded ACK packet, cut short or not, covers nothing the encoded list did not.
-/
import RakNet.Lib.Intervals
import RakNet.Error
import RakNet.Protocol.Packet
import RakNet.Protocol.UInt24

namespace RakNet

open Lib Lib.Wire Lib.Wire.Reader Lib.Intervals

theorem wrappingAdd_one (a : U24) : wrappingAdd a.get 1 = a.get + 1 := by
  have := a.get_lt
  unfold wrappingAdd; omega

/-! ## Ranges -/

/-- a single sequence number, or a range with both ends included -/
inductive AckRange where
  | single (seq : U24)
  | range (start last : U24)
deriving DecidableEq, Repr

namespace AckRange

def count : AckRange → Nat
  | single _ => 1
  | range start last => wrappingAdd (wrappingSub last.get start.get) 1

def contains (r : AckRange) (seq : U24) : Bool :=
  match r with
  | single s => s == seq
  | range start last =>
    if start.get ≤ last.get then decide (start.get ≤ seq.get) && decide (seq.get ≤ last.get)
    else decide (start.get ≤ seq.get) || decide (seq.get ≤ last.get)

/-- `get_range_start` -/
def rangeStart : AckRange → U24
  | single s => s
  | range start _ => start

/-- `get_range_end` -/
def rangeEnd : AckRange → U24
  | single s => s
  | range _ last => last

@[simp] theorem rangeStart_single (s : U24) : (single s).rangeStart = s := rfl
@[simp] theorem rangeEnd_single (s : U24) : (single s).rangeEnd = s := rfl
@[simp] theorem rangeStart_range (s e : U24) : (range s e).rangeStart = s := rfl
@[simp] theorem rangeEnd_range (s e : U24) : (range s e).rangeEnd = e := rfl

/-- the bounds as an interval of natural numbers -/
def bounds (r : AckRange) : ℕ × ℕ := (r.rangeStart.get, r.rangeEnd.get)

/-- a `Range` spans at least two numbers -/
def Proper : AckRange → Prop
  | single _ => True
  | range start last => start.get < last.get

theorem Proper.le {r : AckRange} (h : r.Proper) : r.rangeStart.get ≤ r.rangeEnd.get := by
  cases r with
  | single s => exact le_refl _
  | range start last => exact Nat.le_of_lt h

theorem contains_iff {r : AckRange} (h : r.Proper) (seq : U24) :
    r.contains seq = true ↔ r.rangeStart.get ≤ seq.get ∧ seq.get ≤ r.rangeEnd.get := by
  cases r with
  | single s =>
    simp only [contains, beq_iff_eq, rangeStart, rangeEnd]
    exact ⟨fun e => e ▸ ⟨le_refl _, le_refl _⟩, fun e => U24.ext (by omega)⟩
  | range start last => simp [contains, rangeStart, rangeEnd, Nat.le_of_lt h]

theorem count_eq {r : AckRange} (h : r.Proper) : r.count = r.rangeEnd.get - r.rangeStart.get + 1 := by
  cases r with
  | single s => simp [count, rangeStart, rangeEnd]
  | range start last =>
    have h' : start.get < last.get := h
    have := last.get_lt
    simp only [count, rangeStart, rangeEnd, wrappingAdd, wrappingSub]
    omega

/-- proper ranges with the same bounds are the same range -/
theorem eq_of_bounds {a b : AckRange} (ha : a.Proper) (hb : b.Proper) (h : a.bounds = b.bounds) : a = b := by
  simp only [bounds, Prod.mk.injEq] at h
  have h1 := U24.ext h.1
  have h2 := U24.ext h.2
  cases a with
  | single s =>
    cases b with
    | single t => exact congrArg single h1
    | range start last =>
      have h' : start.get < last.get := hb
      simp only [rangeStart, rangeEnd] at h1 h2
      subst h1 h2; omega
  | range s e =>
    cases b with
    | single t =>
      have h' : s.get < e.get := ha
      simp only [rangeStart, rangeEnd] at h1 h2
      subst h1 h2; omega
    | range start last => exact congrArg₂ range h1 h2

/-- the range `merge_at` puts in place of `r`, or nothing when `seq` is not next to it -/
def grow (r : AckRange) (seq : U24) : Option AckRange :=
  match r with
  | single s =>
    if wrappingAdd s.get 1 = seq.get then some (range s seq)
    else if wrappingAdd seq.get 1 = s.get then some (range seq s)
    else none
  | range start last =>
    if wrappingAdd last.get 1 = seq.get then some (range start seq)
    else if wrappingAdd seq.get 1 = start.get then some (range seq last)
    else none

theorem grow_right {r : AckRange} {seq : U24} (h : r.rangeEnd.get + 1 = seq.get) :
    r.grow seq = some (range r.rangeStart seq) := by
  cases r <;> simp only [grow, rangeStart, rangeEnd, wrappingAdd_one] at * <;> rw [if_pos h]

theorem grow_left {r : AckRange} (hr : r.Proper) {seq : U24} (h : seq.get + 1 = r.rangeStart.get) :
    r.grow seq = some (range seq r.rangeEnd) := by
  have := hr.le
  cases r <;> simp only [grow, rangeStart, rangeEnd, wrappingAdd_one] at * <;>
    rw [if_neg (by omega), if_pos h]

/-- the search test of `insert`: the range holds `seq`, or starts after it -/
def stopsAt (seq : U24) (r : AckRange) : Bool :=
  match r with
  | single s => s.get == seq.get || decide (seq.get < s.get)
  | range start _ => r.contains seq || decide (seq.get < start.get)

theorem stopsAt_iff {r : AckRange} (h : r.Proper) (seq : U24) : r.stopsAt seq = true ↔ seq.get ≤ r.rangeEnd.get := by
  cases r with
  | single s => simp only [stopsAt, Bool.or_eq_true, beq_iff_eq, decide_eq_true_eq, rangeEnd]; omega
  | range start last =>
    have h' : start.get < last.get := h
    simp only [stopsAt, Bool.or_eq_true, contains_iff h, decide_eq_true_eq, rangeEnd, rangeStart]; omega

/-- a range the search passes by ends before the number -/
theorem rangeEnd_lt_of_passed {r : AckRange} (h : r.Proper) {seq : U24} (hpass : r.stopsAt seq = false) :
    r.rangeEnd.get < seq.get := by
  by_contra hle
  rw [(stopsAt_iff h seq).2 (Nat.not_lt.1 hle)] at hpass
  cases hpass

end AckRange

/-! ## Range lists -/

structure AckRangeList where
  ranges : List AckRange
deriving DecidableEq, Repr

namespace AckRangeList

open AckRange

def new : AckRangeList := ⟨[]⟩

/-- `can_merge_with_next`: `seq` comes right after the range at `idx`. Here and below, callers pass positions of the
list (`insertIndexed_eq`), so the `none` arms (an index panic in the source) are not reached. -/
def canMergeWithNext (l : AckRangeList) (idx : Nat) (seq : U24) : Bool :=
  match l.ranges[idx]? with
  | some r => wrappingAdd r.rangeEnd.get 1 == seq.get
  | none => false

/-- `can_merge_with_prev`: `seq` comes right before the range at `idx` -/
def canMergeWithPrev (l : AckRangeList) (idx : Nat) (seq : U24) : Bool :=
  match l.ranges[idx]? with
  | some r => wrappingAdd seq.get 1 == r.rangeStart.get
  | none => false

/-- `merge_at`: grow the range at `idx`, then join it with the next one if they now touch -/
def mergeAt (l : AckRangeList) (idx : Nat) (seq : U24) : AckRangeList :=
  match l.ranges[idx]? with
  | none => l
  | some r =>
    match r.grow seq with
    | none => l
    | some newRange =>
      let ranges := l.ranges.set idx newRange
      match ranges[idx + 1]? with
      | none => ⟨ranges⟩
      | some next =>
        match newRange with
        | .single _ => ⟨ranges⟩
        | .range start last =>
          if wrappingAdd last.get 1 = next.rangeStart.get then
            ⟨(ranges.set idx (.range start next.rangeEnd)).eraseIdx (idx + 1)⟩
          else ⟨ranges⟩

def insert (l : AckRangeList) (seq : U24) : AckRangeList :=
  match l.ranges.findIdx? (stopsAt seq) with
  | some pos =>
    if (l.ranges[pos]?).any (·.contains seq) then l
    else if 0 < pos && l.canMergeWithNext (pos - 1) seq then l.mergeAt (pos - 1) seq
    else if l.canMergeWithPrev pos seq then l.mergeAt pos seq
    else ⟨l.ranges.insertIdx pos (.single seq)⟩
  | none =>
    if !l.ranges.isEmpty && l.canMergeWithNext (l.ranges.length - 1) seq then l.mergeAt (l.ranges.length - 1) seq
    else ⟨l.ranges ++ [.single seq]⟩

/-- the range at a position, as `self.ranges[idx]` -/
def rangeAt (l : AckRangeList) (idx : Nat) : Result AckRange :=
  match l.ranges[idx]? with
  | some r => .ok r
  | none => .panic

/-- `insert` with its index expressions: the positions `insert`, `can_merge_with_next`, `can_merge_with_prev` and
`merge_at` look at, an index panic where one is past the list -/
def insertIndexed (l : AckRangeList) (seq : U24) : Result AckRangeList :=
  match l.ranges.findIdx? (stopsAt seq) with
  | some pos => do
    let here ← l.rangeAt pos
    if here.contains seq then return l
    let prev ← if 0 < pos then l.rangeAt (pos - 1) else .ok here
    if 0 < pos && wrappingAdd prev.rangeEnd.get 1 == seq.get then return l.mergeAt (pos - 1) seq
    if wrappingAdd seq.get 1 == here.rangeStart.get then return l.mergeAt pos seq
    return ⟨l.ranges.insertIdx pos (.single seq)⟩
  | none => do
    if l.ranges.isEmpty then return ⟨l.ranges ++ [.single seq]⟩
    let last ← l.rangeAt (l.ranges.length - 1)
    if wrappingAdd last.rangeEnd.get 1 == seq.get then return l.mergeAt (l.ranges.length - 1) seq
    return ⟨l.ranges ++ [.single seq]⟩

theorem rangeAt_of_lt {l : AckRangeList} {idx : Nat} (h : idx < l.ranges.length) :
    l.rangeAt idx = .ok (l.ranges.get ⟨idx, h⟩) := by
  simp [rangeAt, List.getElem?_eq_getElem h]

/-- **No index of an insertion is past the list.** -/
theorem insertIndexed_eq (l : AckRangeList) (seq : U24) : l.insertIndexed seq = .ok (l.insert seq) := by
  unfold insertIndexed insert
  cases hpos : l.ranges.findIdx? (stopsAt seq) with
  | some pos =>
    obtain ⟨hlt, -⟩ := List.findIdx?_eq_some_iff_getElem.1 hpos
    have hprev : pos - 1 < l.ranges.length := by omega
    simp only [rangeAt_of_lt hlt, rangeAt_of_lt hprev, Outcome.bind_ok, canMergeWithNext, canMergeWithPrev,
      List.getElem?_eq_getElem hlt, List.getElem?_eq_getElem hprev, Option.any_some, List.get_eq_getElem]
    by_cases h0 : 0 < pos
    · simp only [h0, if_true, decide_true, Bool.true_and]
      split_ifs <;> rfl
    · simp only [h0, if_false, decide_false, Bool.false_and]
      split_ifs <;> rfl
  | none =>
    by_cases he : l.ranges = []
    · rw [he]
      rfl
    · have hlast : l.ranges.length - 1 < l.ranges.length :=
        Nat.sub_lt (List.length_pos_iff.2 he) Nat.one_pos
      simp only [rangeAt_of_lt hlast, Outcome.bind_ok, canMergeWithNext, List.getElem?_eq_getElem hlast,
        List.get_eq_getElem, List.isEmpty_eq_false_iff.2 he, Bool.false_eq_true, if_false, Bool.not_false, Bool.true_and]
      split_ifs <;> rfl

/-- insert a list of numbers one after another -/
def insertAll (l : AckRangeList) (seqs : List U24) : AckRangeList := seqs.foldl insert l

/-- `from_sequences`: sort, then insert each value masked to 24 bits -/
def fromSequences (seqs : List Nat) : AckRangeList := new.insertAll ((seqs.mergeSort (· ≤ ·)).map U24.new)

/-- `x` is in one of the ranges -/
def Mem (l : AckRangeList) (x : U24) : Prop := ∃ r ∈ l.ranges, r.contains x = true

/-- the intervals of a list -/
def intervals (l : AckRangeList) : List (ℕ × ℕ) := l.ranges.map bounds

/-- maximal runs in increasing order, none written as a range of one number -/
structure Inv (l : AckRangeList) : Prop where
  proper : ∀ r ∈ l.ranges, r.Proper
  canonical : Canonical l.intervals

theorem inv_new : new.Inv := ⟨by simp [new], canonical_nil⟩

theorem mem_iff_covers {l : AckRangeList} (h : l.Inv) (x : U24) : l.Mem x ↔ Covers l.intervals x.get := by
  constructor
  · rintro ⟨r, hr, hx⟩
    exact ⟨r.bounds, List.mem_map_of_mem hr, (contains_iff (h.proper r hr) x).1 hx⟩
  · rintro ⟨_, hb, hx⟩
    obtain ⟨r, hr, rfl⟩ := List.mem_map.1 hb
    exact ⟨r, hr, (contains_iff (h.proper r hr) x).2 hx⟩

/-! ### One insertion -/

/-- what an insertion must do: keep the invariant, add exactly `seq` -/
def Adds (l : AckRangeList) (seq : U24) (l' : AckRangeList) : Prop :=
  l'.Inv ∧ ∀ x, Covers l'.intervals x ↔ Covers l.intervals x ∨ x = seq.get

/-- the ranges `m` in the middle of the list are replaced by `r`, which covers them and `seq` -/
theorem adds_block (seq : U24) {a m b : List AckRange} {r : AckRange} (h : Inv ⟨a ++ m ++ b⟩) (hr : r.Proper)
    (hlo : ∀ q ∈ a, q.rangeEnd.get + 1 < r.rangeStart.get) (hhi : ∀ q ∈ b, r.rangeEnd.get + 1 < q.rangeStart.get)
    (hcov : ∀ x, (r.rangeStart.get ≤ x ∧ x ≤ r.rangeEnd.get) ↔ Covers (m.map bounds) x ∨ x = seq.get) :
    Adds ⟨a ++ m ++ b⟩ seq ⟨a ++ r :: b⟩ := by
  have hc := h.canonical
  simp only [intervals, List.map_append] at hc
  refine ⟨⟨?_, ?_⟩, ?_⟩
  · intro q hq
    rcases List.mem_append.1 hq with hq | hq
    · exact h.proper q (by simp [hq])
    · rcases List.mem_cons.1 hq with rfl | hq
      · exact hr
      · exact h.proper q (by simp [hq])
  · simp only [intervals, List.map_append, List.map_cons]
    apply canonical_block hc.append_left.append_left hc.append_right hr.le
    · simpa [bounds] using hlo
    · simpa [bounds] using hhi
  · intro x
    simp only [intervals, List.map_append, List.map_cons, covers_append, covers_cons]
    have := hcov x
    simp only [bounds] at *
    tauto

/-- growing a range to the right, and over the next one when they touch -/
theorem mergeAt_right {a b : List AckRange} {p : AckRange} {seq : U24} (h : Inv ⟨a ++ p :: b⟩)
    (hp : p.rangeEnd.get + 1 = seq.get) (hb : ∀ q ∈ b, seq.get < q.rangeStart.get) :
    Adds ⟨a ++ p :: b⟩ seq (mergeAt ⟨a ++ p :: b⟩ a.length seq) := by
  have hle := (h.proper p (by simp)).le
  have hgaps := List.pairwise_append.1 (List.pairwise_map.1 h.canonical.gaps)
  have hlo : ∀ q ∈ a, q.rangeEnd.get + 1 < p.rangeStart.get := fun q hq => hgaps.2.2 q hq p (by simp)
  have hset : (a ++ p :: b).set a.length (.range p.rangeStart seq) = a ++ .range p.rangeStart seq :: b := by simp
  unfold mergeAt
  simp only [List.getElem?_append_right, le_refl, Nat.sub_self, List.getElem?_cons_zero, grow_right hp, hset]
  cases b with
  | nil =>
    simp only [Nat.le_add_right, List.getElem?_append_right, Nat.add_sub_cancel_left, List.getElem?_cons_succ,
      List.getElem?_nil]
    have h' : Inv ⟨a ++ [p] ++ []⟩ := by simpa using h
    have := adds_block seq (r := .range p.rangeStart seq) h' (show p.rangeStart.get < seq.get by omega) hlo
      (by simp) (fun x => by simp only [rangeStart_range, rangeEnd_range, List.map_cons, List.map_nil, covers_cons, bounds,
        not_covers_nil, or_false]; omega)
    simpa using this
  | cons q b =>
    have hq := (h.proper q (by simp)).le
    have hqb : ∀ q' ∈ b, q.rangeEnd.get + 1 < q'.rangeStart.get := fun q' hq' =>
      (List.pairwise_cons.1 (List.pairwise_cons.1 hgaps.2.1).2).1 q' hq'
    have hnext := hb q (by simp)
    simp only [Nat.le_add_right, List.getElem?_append_right, Nat.add_sub_cancel_left, List.getElem?_cons_succ,
      List.getElem?_cons_zero, wrappingAdd_one]
    split_ifs with htouch
    · -- the gap between the two ranges was exactly seq
      have h' : Inv ⟨a ++ [p, q] ++ b⟩ := by simpa using h
      have := adds_block seq (r := .range p.rangeStart q.rangeEnd) h'
        (show p.rangeStart.get < q.rangeEnd.get by omega) hlo hqb
        (fun x => by simp only [rangeStart_range, rangeEnd_range, List.map_cons, List.map_nil, covers_cons, bounds,
          not_covers_nil, or_false]; omega)
      simpa [List.eraseIdx_append] using this
    · have h' : Inv ⟨a ++ [p] ++ (q :: b)⟩ := by simpa using h
      have := adds_block seq (r := .range p.rangeStart seq) h' (show p.rangeStart.get < seq.get by omega) hlo
        (by
          intro q' hq'
          rcases List.mem_cons.1 hq' with rfl | hq'
          · show seq.get + 1 < q'.rangeStart.get; omega
          · have := hqb q' hq'; show seq.get + 1 < q'.rangeStart.get; omega)
        (fun x => by simp only [rangeStart_range, rangeEnd_range, List.map_cons, List.map_nil, covers_cons, bounds,
          not_covers_nil, or_false]; omega)
      simpa using this

/-- growing a range to the left, when the range before it does not touch `seq` -/
theorem mergeAt_left {a b : List AckRange} {q : AckRange} {seq : U24} (h : Inv ⟨a ++ q :: b⟩)
    (hq : seq.get + 1 = q.rangeStart.get) (ha : ∀ p ∈ a, p.rangeEnd.get + 1 < seq.get) :
    Adds ⟨a ++ q :: b⟩ seq (mergeAt ⟨a ++ q :: b⟩ a.length seq) := by
  have hpq := h.proper q (by simp)
  have hle := hpq.le
  have hgaps := List.pairwise_append.1 (List.pairwise_map.1 h.canonical.gaps)
  have hqb : ∀ q' ∈ b, q.rangeEnd.get + 1 < q'.rangeStart.get := fun q' hq' =>
    (List.pairwise_cons.1 hgaps.2.1).1 q' hq'
  have hset : (a ++ q :: b).set a.length (.range seq q.rangeEnd) = a ++ .range seq q.rangeEnd :: b := by simp
  have h' : Inv ⟨a ++ [q] ++ b⟩ := by simpa using h
  have key := adds_block seq (r := .range seq q.rangeEnd) h' (show seq.get < q.rangeEnd.get by omega)
    ha hqb (fun x => by simp only [rangeStart_range, rangeEnd_range, List.map_cons, List.map_nil, covers_cons, bounds,
      not_covers_nil, or_false]; omega)
  simp only [List.append_assoc, List.cons_append, List.nil_append] at key
  unfold mergeAt
  simp only [List.getElem?_append_right, le_refl, Nat.sub_self, List.getElem?_cons_zero, grow_left hpq hq, hset]
  cases b with
  | nil => simpa using key
  | cons q' b =>
    have hne := hqb q' (by simp)
    simp only [Nat.le_add_right, List.getElem?_append_right, Nat.add_sub_cancel_left, List.getElem?_cons_succ,
      List.getElem?_cons_zero, wrappingAdd_one]
    rw [if_neg (by omega)]
    exact key

/-- a new single range between ranges that do not touch it -/
theorem adds_single {a b : List AckRange} {seq : U24} (h : Inv ⟨a ++ b⟩)
    (ha : ∀ p ∈ a, p.rangeEnd.get + 1 < seq.get) (hb : ∀ q ∈ b, seq.get + 1 < q.rangeStart.get) :
    Adds ⟨a ++ b⟩ seq ⟨a ++ .single seq :: b⟩ := by
  have h' : Inv ⟨a ++ [] ++ b⟩ := by simpa using h
  have := adds_block seq (r := .single seq) h' trivial ha hb
    (fun x => by simp only [rangeStart_single, rangeEnd_single, List.map_nil, not_covers_nil, false_or]; omega)
  simpa using this

/-- the position found by a search splits the list -/
theorem findIdx_split {α : Type} {p : α → Bool} {l : List α} {i : Nat} (h : l.findIdx? p = some i) :
    ∃ a q b, l = a ++ q :: b ∧ a.length = i ∧ p q = true ∧ ∀ r ∈ a, p r = false := by
  obtain ⟨hi, hp, hbefore⟩ := List.findIdx?_eq_some_iff_getElem.1 h
  refine ⟨l.take i, l[i], l.drop (i + 1), by simp, by rw [List.length_take]; omega, hp, ?_⟩
  intro r hr
  obtain ⟨j, hj, rfl⟩ := List.mem_iff_getElem.1 hr
  rw [List.length_take] at hj
  rw [List.getElem_take]
  simpa using hbefore j (by omega)

/-- the last range before the position touches `seq` -/
theorem canMergeWithNext_append (a b : List AckRange) (seq : U24) :
    (decide (0 < a.length) && canMergeWithNext ⟨a ++ b⟩ (a.length - 1) seq) = true ↔
      ∃ a' p, a = a' ++ [p] ∧ p.rangeEnd.get + 1 = seq.get := by
  rcases List.eq_nil_or_concat' a with rfl | ⟨a', p, rfl⟩
  · simp
  · simp [canMergeWithNext, wrappingAdd_one]

/-- if the last range before the position does not touch `seq`, none of them does -/
theorem not_touching {a b : List AckRange} {seq : U24} (h : Inv ⟨a ++ b⟩) (ha : ∀ p ∈ a, p.rangeEnd.get < seq.get)
    (hlast : ¬ ∃ a' p, a = a' ++ [p] ∧ p.rangeEnd.get + 1 = seq.get) : ∀ p ∈ a, p.rangeEnd.get + 1 < seq.get := by
  rcases List.eq_nil_or_concat' a with rfl | ⟨a', p, rfl⟩
  · simp
  · have hgaps := List.pairwise_append.1 (List.pairwise_append.1 (List.pairwise_map.1 h.canonical.gaps)).1
    have hp := ha p (by simp)
    have hpp := (h.proper p (by simp)).le
    have hne : p.rangeEnd.get + 1 ≠ seq.get := fun e => hlast ⟨a', p, rfl, e⟩
    intro q hq
    rcases List.mem_append.1 hq with hq | hq
    · have : q.rangeEnd.get + 1 < p.rangeStart.get := hgaps.2.2 q hq p (by simp)
      omega
    · rw [List.mem_singleton.1 hq]; omega

theorem insertIdx_length_append {α : Type} (a b : List α) (x : α) : (a ++ b).insertIdx a.length x = a ++ x :: b := by
  induction a with
  | nil => simp
  | cons y a ih => simpa using ih

/-- **One insertion.** The list stays the list of maximal runs, and covers exactly one number more. -/
theorem insert_spec {l : AckRangeList} (h : l.Inv) (seq : U24) : Adds l seq (l.insert seq) := by
  obtain ⟨ranges⟩ := l
  unfold insert
  cases hpos : ranges.findIdx? (stopsAt seq) with
  | none =>
    -- every range ends before seq
    have hends : ∀ p ∈ ranges, p.rangeEnd.get < seq.get := fun p hp =>
      rangeEnd_lt_of_passed (h.proper p hp) (List.findIdx?_eq_none_iff.1 hpos p hp)
    have h' : Inv ⟨ranges ++ []⟩ := by simpa using h
    have hempty : (!ranges.isEmpty) = decide (0 < ranges.length) := by cases ranges <;> simp
    have htest := canMergeWithNext_append ranges [] seq
    simp only [List.append_nil] at htest
    simp only [hempty]
    split_ifs with hnext
    · obtain ⟨a, p, rfl, hp⟩ := htest.1 hnext
      simpa using mergeAt_right h hp (by simp)
    · simpa using adds_single h' (not_touching h' hends (mt htest.2 hnext)) (by simp)
  | some pos =>
    obtain ⟨a, q, b, rfl, rfl, hq, ha⟩ := findIdx_split hpos
    have hpq := h.proper q (by simp)
    have hends : ∀ p ∈ a, p.rangeEnd.get < seq.get := fun p hp =>
      rangeEnd_lt_of_passed (h.proper p (List.mem_append_left _ hp)) (ha p hp)
    have hqe := (stopsAt_iff hpq seq).1 hq
    have hqat : (a ++ q :: b)[a.length]? = some q := by simp
    simp only [hqat, Option.any_some]
    split_ifs with hin hnext hprev
    · -- already there
      refine ⟨h, fun x => ⟨Or.inl, fun hx => hx.elim id ?_⟩⟩
      intro e
      exact e ▸ (mem_iff_covers h seq).1 ⟨q, by simp, hin⟩
    all_goals
      have hqs : seq.get < q.rangeStart.get := by
        by_contra hle
        exact hin ((contains_iff hpq seq).2 ⟨by omega, hqe⟩)
      have hgaps := List.pairwise_append.1 (List.pairwise_map.1 h.canonical.gaps)
      have hqb : ∀ q' ∈ b, q.rangeEnd.get + 1 < q'.rangeStart.get := fun q' hq' =>
        (List.pairwise_cons.1 hgaps.2.1).1 q' hq'
      have hle := hpq.le
    · obtain ⟨a', p, rfl, hp⟩ := (canMergeWithNext_append _ _ _).1 hnext
      have hb : ∀ q' ∈ q :: b, seq.get < q'.rangeStart.get := by
        intro q' hq'
        rcases List.mem_cons.1 hq' with rfl | hq'
        · exact hqs
        · have := hqb q' hq'; omega
      have h' : Inv ⟨a' ++ p :: (q :: b)⟩ := by simpa using h
      simpa using mergeAt_right h' hp hb
    · have hprev' : seq.get + 1 = q.rangeStart.get := by
        simpa [canMergeWithPrev, wrappingAdd_one] using hprev
      exact mergeAt_left h hprev' (not_touching h hends (mt (canMergeWithNext_append _ _ _).2 hnext))
    · have hne : seq.get + 1 ≠ q.rangeStart.get := by
        simpa [canMergeWithPrev, wrappingAdd_one] using hprev
      rw [insertIdx_length_append]
      apply adds_single h (not_touching h hends (mt (canMergeWithNext_append _ _ _).2 hnext))
      intro q' hq'
      rcases List.mem_cons.1 hq' with rfl | hq'
      · omega
      · have := hqb q' hq'; omega

theorem insert_inv {l : AckRangeList} (h : l.Inv) (seq : U24) : (l.insert seq).Inv := (insert_spec h seq).1

/-- an insertion adds exactly the inserted number -/
theorem mem_insert {l : AckRangeList} (h : l.Inv) (seq x : U24) : (l.insert seq).Mem x ↔ l.Mem x ∨ x = seq := by
  rw [mem_iff_covers (insert_inv h seq), mem_iff_covers h, (insert_spec h seq).2]
  exact or_congr_right ⟨fun e => U24.ext e, fun e => e ▸ rfl⟩

/-! ### Any number of insertions -/

theorem insertAll_append (l : AckRangeList) (xs ys : List U24) :
    l.insertAll (xs ++ ys) = (l.insertAll xs).insertAll ys := List.foldl_append

theorem insertAll_inv {l : AckRangeList} (h : l.Inv) (seqs : List U24) : (l.insertAll seqs).Inv := by
  induction seqs generalizing l with
  | nil => exact h
  | cons s seqs ih => exact ih (insert_inv h s)

theorem mem_insertAll {l : AckRangeList} (h : l.Inv) (seqs : List U24) (x : U24) :
    (l.insertAll seqs).Mem x ↔ l.Mem x ∨ x ∈ seqs := by
  induction seqs generalizing l with
  | nil => simp [insertAll]
  | cons s seqs ih =>
    have := ih (insert_inv h s)
    rw [insertAll, List.foldl_cons]
    rw [insertAll] at this
    rw [this, mem_insert h, List.mem_cons, or_assoc]

theorem not_mem_new (x : U24) : ¬ new.Mem x := by simp [Mem, new]

theorem mem_new_insertAll (seqs : List U24) (x : U24) : (new.insertAll seqs).Mem x ↔ x ∈ seqs := by
  rw [mem_insertAll inv_new]
  exact or_iff_right (not_mem_new x)

/-- lists of maximal runs of the same set are equal -/
theorem Inv.eq_of_mem {l l' : AckRangeList} (h : l.Inv) (h' : l'.Inv) (hmem : ∀ x, l.Mem x ↔ l'.Mem x) : l = l' := by
  -- a covered natural number is a 24-bit value, so covering agrees beyond the values of U24 too
  have hlt : ∀ {m : AckRangeList}, ∀ x, Covers m.intervals x → x < 2 ^ 24 := by
    rintro m x ⟨_, hb, -, hx⟩
    obtain ⟨r, -, rfl⟩ := List.mem_map.1 hb
    exact lt_of_le_of_lt hx r.rangeEnd.get_lt
  have hcov : ∀ x, Covers l.intervals x ↔ Covers l'.intervals x := by
    intro x
    by_cases hx : x < 2 ^ 24
    · have := hmem (U24.new x)
      rwa [mem_iff_covers h, mem_iff_covers h', U24.get_new_of_lt hx] at this
    · exact ⟨fun hc => absurd (hlt x hc) hx, fun hc => absurd (hlt x hc) hx⟩
  have hb := h.canonical.eq_of_covers h'.canonical hcov
  obtain ⟨rs⟩ := l
  obtain ⟨rs'⟩ := l'
  congr 1
  simp only [intervals] at hb
  have hrs := h.proper
  have hrs' := h'.proper
  clear hcov hmem h h'
  induction rs generalizing rs' with
  | nil => simpa using hb.symm
  | cons r rs ih =>
    cases rs' with
    | nil => simp at hb
    | cons r' rs' =>
      simp only [List.map_cons, List.cons.injEq] at hb
      rw [eq_of_bounds (hrs r (by simp)) (hrs' r' (by simp)) hb.1,
        ih rs' hb.2 (fun q hq => hrs q (by simp [hq])) (fun q hq => hrs' q (by simp [hq]))]

/-- the counts of the ranges add up to the size of the set -/
theorem Inv.sum_count {l : AckRangeList} (h : l.Inv) (s : Finset U24) (hs : ∀ x, x ∈ s ↔ l.Mem x) :
    (l.ranges.map count).sum = s.card := by
  have hsizes : l.ranges.map count = l.intervals.map fun r => r.2 - r.1 + 1 := by
    simp only [intervals, List.map_map]
    exact List.map_congr_left fun r hr => count_eq (h.proper r hr)
  rw [hsizes, h.canonical.sum_sizes]
  symm
  refine Finset.card_bij (fun x _ => x.get) ?_ (fun x _ y _ e => U24.ext e) ?_
  · intro x hx
    exact mem_toFinset.2 ((mem_iff_covers h x).1 ((hs x).1 hx))
  · intro n hn
    obtain ⟨b, hb, h1, h2⟩ := mem_toFinset.1 hn
    obtain ⟨r, hr, rfl⟩ := List.mem_map.1 hb
    have hlt : n < 2 ^ 24 := lt_of_le_of_lt h2 r.rangeEnd.get_lt
    refine ⟨U24.new n, (hs _).2 ⟨r, hr, (contains_iff (h.proper r hr) _).2 ?_⟩, U24.get_new_of_lt hlt⟩
    rw [U24.get_new_of_lt hlt]
    exact ⟨h1, h2⟩

/-- the maximal-run decomposition of a set of sequence numbers, said on the ranges themselves -/
structure MaximalRuns (rs : List AckRange) (s : U24 → Prop) : Prop where
  /-- every `Range` has start < end -/
  proper : ∀ r ∈ rs, r.Proper
  /-- strictly increasing, with a missing number between any two ranges -/
  gaps : rs.Pairwise fun a b => a.rangeEnd.get + 1 < b.rangeStart.get
  mem : ∀ x, (∃ r ∈ rs, r.contains x = true) ↔ s x

theorem MaximalRuns.inv {rs : List AckRange} {s : U24 → Prop} (h : MaximalRuns rs s) : Inv ⟨rs⟩ where
  proper := h.proper
  canonical := by
    refine ⟨?_, List.pairwise_map.2 h.gaps⟩
    intro b hb
    obtain ⟨r, hr, rfl⟩ := List.mem_map.1 hb
    exact (h.proper r hr).le

theorem Inv.maximalRuns {l : AckRangeList} (h : l.Inv) : MaximalRuns l.ranges l.Mem :=
  ⟨h.proper, List.pairwise_map.1 h.canonical.gaps, fun _ => Iff.rfl⟩

/-- **Canonical form.** After any insertions, in any order and with any duplicates, the ranges are the maximal runs of
the inserted set, and the only such list; so they depend on that set alone, `from_sequences` gives the same list, and
the counts add up to the size of the set. -/
theorem ranges_maximal_runs (seqs : List U24) :
    MaximalRuns (new.insertAll seqs).ranges (· ∈ seqs) ∧
    (∀ rs, MaximalRuns rs (· ∈ seqs) → rs = (new.insertAll seqs).ranges) ∧
    (∀ seqs', (∀ x, x ∈ seqs' ↔ x ∈ seqs) → new.insertAll seqs' = new.insertAll seqs) ∧
    (∀ raw : List Nat, (∀ x, x ∈ raw.map U24.new ↔ x ∈ seqs) → fromSequences raw = new.insertAll seqs) ∧
    ((new.insertAll seqs).ranges.map count).sum = seqs.toFinset.card := by
  have hinv := insertAll_inv inv_new seqs
  have hmem := mem_new_insertAll seqs
  have hset : ∀ seqs', (∀ x, x ∈ seqs' ↔ x ∈ seqs) → new.insertAll seqs' = new.insertAll seqs := fun seqs' h =>
    (insertAll_inv inv_new seqs').eq_of_mem hinv fun x => by rw [mem_new_insertAll, hmem, h]
  refine ⟨⟨hinv.proper, hinv.maximalRuns.gaps, hmem⟩, ?_, hset, ?_, ?_⟩
  · intro rs hrs
    have := hrs.inv.eq_of_mem hinv fun x => by rw [hmem]; exact hrs.mem x
    exact congrArg ranges this
  · intro raw hraw
    apply hset
    intro x
    rw [← hraw, List.mem_map, List.mem_map]
    simp only [List.mem_mergeSort]
  · exact hinv.sum_count _ fun x => by rw [List.mem_toFinset, hmem]

example : (new.insertAll ([5, 7, 6, 0xFFFFFF, 0, 6].map U24.new)).ranges =
    [.single (U24.new 0), .range (U24.new 5) (U24.new 7), .single (U24.new 0xFFFFFF)] := by decide

end AckRangeList

/-! ## Numbers named by a list -/

/-- does the range name this number -/
def AckRange.covers (r : AckRange) (s : Nat) : Bool :=
  match r with
  | .single seq => s == seq.get
  | .range start last => seqInRange s start.get last.get

/-- does some range of the list name this number -/
def AckRangeList.covers (l : AckRangeList) (s : Nat) : Bool := l.ranges.any (·.covers s)

theorem AckRangeList.mem_of_covers {l : AckRangeList} (h : l.Inv) {s : Nat} (hs : l.covers s = true) :
    ∃ x : U24, x.get = s ∧ l.Mem x := by
  obtain ⟨r, hr, hc⟩ := List.any_eq_true.1 hs
  have hp := h.proper r hr
  have hb : r.rangeStart.get ≤ s ∧ s ≤ r.rangeEnd.get := by
    cases r with
    | single seq =>
      have : s = seq.get := by simpa [AckRange.covers] using hc
      simp [this]
    | range start last =>
      have hlt : start.get < last.get := hp
      simpa [AckRange.covers, seqInRange, Nat.le_of_lt hlt] using hc
  have hlt : s < 2 ^ 24 := lt_of_le_of_lt hb.2 r.rangeEnd.get_lt
  refine ⟨U24.new s, U24.get_new_of_lt hlt, r, hr, (AckRange.contains_iff hp _).2 ?_⟩
  rw [U24.get_new_of_lt hlt]
  exact hb

/-! ## ACK and NACK packets -/

namespace AckRange

/-- type byte 1 and the number, or type byte 0 and both ends -/
def encode : AckRange → Bytes
  | single seq => [1] ++ writeU24 seq
  | range start last => [0] ++ writeU24 start ++ writeU24 last

/-- `encoded_size` -/
def encodedSize : AckRange → Nat
  | single _ => 1 + 3
  | range _ _ => 1 + 3 + 3

theorem length_encode (r : AckRange) : r.encode.length = r.encodedSize := by
  cases r <;> simp [encode, encodedSize]

def decode : Reader Error AckRange := do
  if (← remaining) < 1 then fail (.invalidPacket "ACK range too short")
  else
    let rangeType ← getU8
    if rangeType = 1 then
      if (← remaining) < 3 then fail (.invalidPacket "ACK single range truncated")
      else
        let seq ← lift (readU24 (← peek))
        advance 3
        return single seq
    else if rangeType = 0 then
      if (← remaining) < 6 then fail (.invalidPacket "ACK range truncated")
      else
        let start ← lift (readU24 (← peek))
        advance 3
        let last ← lift (readU24 (← peek))
        advance 3
        return range start last
    else fail (.invalidPacket s!"Invalid ACK range type: {rangeType}")

theorem decode_encode (r : AckRange) (rest : Bytes) : decode (r.encode ++ rest) = .ok (r, rest) := by
  cases r with
  | single seq =>
    have h3 := advance_append (ε := Error) 3 (writeU24 seq) rest (length_writeU24 seq)
    simp [decode, encode, h3]
  | range start last =>
    have h3 := advance_append (ε := Error) 3 (writeU24 start) (writeU24 last ++ rest) (length_writeU24 start)
    have h6 := advance_append (ε := Error) 3 (writeU24 last) rest (length_writeU24 last)
    simp [decode, encode, h3, h6, show ¬ 3 + (3 + rest.length) < 6 by omega]

/-- a range cut short does not decode -/
theorem decode_cut (r : AckRange) {k : Nat} (hk : k < r.encode.length) (q : AckRange × Bytes) :
    decode (r.encode.take k) ≠ .ok q := by
  cases r with
  | single seq =>
    have hk' : k < 4 := by simpa [encode] using hk
    interval_cases k <;> simp [decode, encode, writeU24]
  | range start last =>
    have hk' : k < 7 := by simpa [encode] using hk
    interval_cases k <;> simp [decode, encode, writeU24]

/-- what decodes from the cut encoding of a range and more is that range, and the rest is cut accordingly -/
theorem decode_take {r q : AckRange} {rest rest' : Bytes} {k : Nat}
    (h : decode ((r.encode ++ rest).take k) = .ok (q, rest')) :
    r.encode.length ≤ k ∧ q = r ∧ rest' = rest.take (k - r.encode.length) := by
  by_cases hk : k < r.encode.length
  · rw [List.take_append_of_le_length (by omega)] at h
    exact absurd h (decode_cut r hk _)
  · rw [List.take_append, List.take_of_length_le (by omega), decode_encode] at h
    simp only [Outcome.ok.injEq, Prod.mk.injEq] at h
    exact ⟨by omega, h.1.symm, h.2.symm⟩

/-- the numbers `decode_ack_nack` inserts for a range, wraparound included -/
def expand : AckRange → List U24
  | single seq => [seq]
  | range start last =>
    if start.get ≤ last.get then (List.range' start.get (last.get + 1 - start.get)).map U24.new
    else (List.range' start.get (0x00FFFFFF + 1 - start.get)).map U24.new ++ (List.range' 0 (last.get + 1)).map U24.new

theorem mem_expand {r : AckRange} (h : r.Proper) (x : U24) : x ∈ r.expand ↔ r.contains x = true := by
  cases r with
  | single s => simp only [expand, List.mem_singleton, contains, beq_iff_eq]; exact eq_comm
  | range start last =>
    have h' : start.get < last.get := h
    rw [contains_iff h, expand, if_pos (by omega)]
    simp only [List.mem_map, List.mem_range'_1, rangeStart_range, rangeEnd_range]
    constructor
    · rintro ⟨n, hn, rfl⟩
      have := last.get_lt
      rw [U24.get_new_of_lt (by omega)]
      omega
    · intro hx
      exact ⟨x.get, by omega, U24.new_get x⟩

end AckRange

namespace AckRangeList

open AckRange

/-- the record count (a `u16`) and the ranges -/
def encodeRecords (l : AckRangeList) : Bytes :=
  putU16 (UInt16.ofNat l.ranges.length) ++ (l.ranges.map AckRange.encode).flatten

/-- the record loop of `decode_ack_nack`; each range is expanded and inserted number by number -/
def readRecords : Nat → AckRangeList → Reader Error AckRangeList
  | 0, l => pure l
  | n + 1, l => do
    let r ← AckRange.decode
    readRecords n (l.insertAll r.expand)

/-- `encoded_size` -/
def encodedSize (l : AckRangeList) : Nat := (l.ranges.map AckRange.encodedSize).sum

theorem length_records (rs : List AckRange) : (rs.map AckRange.encode).flatten.length = (rs.map AckRange.encodedSize).sum := by
  rw [List.length_flatten, List.map_map]
  exact congrArg List.sum (List.map_congr_left fun r _ => r.length_encode)

/-- `n` records that decode from a cut encoding of `rs` are its first `n`, and the cut is behind them -/
theorem readRecords_take {n : Nat} {rs : List AckRange} {l l' : AckRangeList} {k : Nat} {rest : Bytes} (hn : n ≤ rs.length)
    (hread : readRecords n l ((rs.map AckRange.encode).flatten.take k) = .ok (l', rest)) :
    l' = l.insertAll ((rs.take n).flatMap expand) ∧ ((rs.take n).map AckRange.encodedSize).sum ≤ k := by
  induction n generalizing rs l k with
  | zero =>
    simp only [readRecords, pure_apply, Outcome.ok.injEq, Prod.mk.injEq] at hread
    exact ⟨hread.1.symm, Nat.zero_le k⟩
  | succ n ih =>
    cases rs with
    | nil => simp at hn
    | cons r rs =>
      obtain ⟨q, b, hq, hread⟩ := Reader.bind_eq_ok.1 hread
      obtain ⟨hle, rfl, rfl⟩ := decode_take hq
      obtain ⟨hlist, hsize⟩ := ih (by simpa using hn) hread
      rw [length_encode] at hle hsize
      refine ⟨?_, ?_⟩
      · rw [hlist, List.take_succ_cons, List.flatMap_cons, insertAll_append]
      · rw [List.take_succ_cons, List.map_cons, List.sum_cons]
        omega

end AckRangeList

def encodeAck (l : AckRangeList) : Bytes := [idAck] ++ l.encodeRecords

def encodeNack (l : AckRangeList) : Bytes := [idNack] ++ l.encodeRecords

def decodeAckNack : Bytes → Result (Bool × AckRangeList)
  | [] => .err (.invalidPacket "ACK/NACK packet empty")
  | packetId :: buf =>
    if packetId ≠ idAck ∧ packetId ≠ idNack then .err (.invalidPacket "Not an ACK/NACK packet")
    else Reader.run (do
      if (← remaining) < 2 then fail (.invalidPacket "ACK/NACK missing record count")
      else
        let recordCount ← getU16
        let list ← AckRangeList.readRecords recordCount.toNat .new
        return (packetId == idAck, list)) buf

/-! ### Decoders that check before they read -/

theorem AckRange.safe_decode : Safe AckRange.decode 0 0 := by
  refine safe_guard _ ((safe_getU8 0).bind fun rangeType => Safe.ite ?_ (Safe.ite ?_ (safe_fail _ _ _))) 0
  · refine safe_guard _ ?_ 0
    exact safe_readU24 (n := 0) fun seq => (safe_advance 3 0).bind fun _ => safe_pure _ _
  · refine safe_guard _ ?_ 0
    exact safe_readU24 (n := 3) fun start => (safe_advance 3 3).bind fun _ =>
      safe_readU24 (n := 0) fun last => (safe_advance 3 0).bind fun _ => safe_pure _ _

theorem AckRangeList.safe_readRecords (n : Nat) (l : AckRangeList) : Safe (readRecords n l) 0 0 := by
  induction n generalizing l with
  | zero => exact safe_pure _ _
  | succ n ih => exact AckRange.safe_decode.bind fun r => ih _

theorem decodeAckNack_ne_panic (data : Bytes) : decodeAckNack data ≠ .panic := by
  unfold decodeAckNack
  cases data with
  | nil => simp
  | cons packetId buf =>
    dsimp only
    split_ifs
    · simp
    · refine Safe.run_ne_panic (m := 0) (safe_guard _ ((safe_getU16 0).bind fun n => ?_) 0) buf
      exact (AckRangeList.safe_readRecords _ _).bind fun l => safe_pure _ _

/-- what decodes from an encoded ACK packet, cut at any length: the ranges the truncated record count speaks of, which are
all before the cut -/
theorem decodeAckNack_take {l l' : AckRangeList} {k : Nat} {isAck : Bool}
    (hd : decodeAckNack ((encodeAck l).take k) = .ok (isAck, l')) :
    isAck = true ∧ l' = AckRangeList.new.insertAll ((l.ranges.take (l.ranges.length % 2 ^ 16)).flatMap AckRange.expand) ∧
      3 + ((l.ranges.take (l.ranges.length % 2 ^ 16)).map AckRange.encodedSize).sum ≤ k := by
  cases k with
  | zero => simp [decodeAckNack] at hd
  | succ k =>
    simp only [encodeAck, List.cons_append, List.nil_append, List.take_succ_cons, decodeAckNack, ne_eq,
      not_true_eq_false, false_and, if_false, Reader.run, beq_self_eq_true] at hd
    obtain ⟨⟨v, b⟩, hd, hv⟩ := Outcome.bind_eq_ok.1 hd
    simp only [bind_apply, remaining_apply, Outcome.bind_ok] at hd
    split_ifs at hd with hlen
    · simp at hd
    · have hk : 2 ≤ k := by rw [List.length_take] at hlen; omega
      obtain ⟨n, b', hn, hd1⟩ := Reader.bind_eq_ok.1 hd
      obtain ⟨list, b'', hread, hd2⟩ := Reader.bind_eq_ok.1 hd1
      clear hd hd1
      rw [AckRangeList.encodeRecords, List.take_append, List.take_of_length_le (by simpa using hk), getU16_putU16] at hn
      simp only [pure_apply, Outcome.ok.injEq, Prod.mk.injEq] at hn hd2 hv
      obtain ⟨rfl, rfl⟩ := hn
      obtain ⟨rfl, rfl⟩ := hd2
      simp only [Prod.mk.injEq] at hv
      obtain ⟨rfl, rfl⟩ := hv
      rw [UInt16.toNat_ofNat', length_putU16] at hread
      obtain ⟨hlist, hsize⟩ := AckRangeList.readRecords_take (Nat.mod_le _ _) hread
      exact ⟨rfl, hlist, by omega⟩

/-- **Nothing is acknowledged that was not in the list.** Whatever decodes from an encoded ACK packet, cut at any length
and with its record count truncated to 16 bits, is an ACK of numbers of the encoded list. -/
theorem decodeAckNack_encodeAck {l l' : AckRangeList} (h : l.Inv) {k : Nat} {isAck : Bool}
    (hd : decodeAckNack ((encodeAck l).take k) = .ok (isAck, l')) :
    isAck = true ∧ l'.Inv ∧ ∀ x, l'.Mem x → l.Mem x := by
  obtain ⟨hack, rfl, -⟩ := decodeAckNack_take hd
  refine ⟨hack, AckRangeList.insertAll_inv AckRangeList.inv_new _, ?_⟩
  intro x hx
  obtain ⟨r, hr, hxr⟩ := List.mem_flatMap.1 ((AckRangeList.mem_new_insertAll _ x).1 hx)
  have hmem := List.mem_of_mem_take hr
  exact ⟨r, hmem, (AckRange.mem_expand (h.proper r hmem) x).1 hxr⟩

end RakNet
