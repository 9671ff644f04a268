/-
A range of sequence numbers against its numbers one by one.

- `removes_acknowledgeEach`: single calls in turn remove the numbers they name, and count the ones they found.
- `acknowledgeRange_eq_each`: `acknowledge_range` is `acknowledge` for every number from start to end, in wrapping order.
- `count_iff`: `count` is how many numbers `contains` holds of exactly for the ranges that do not wrap. The others are counted
  2^32 - 2^24 too many, modulo 2^32.
- `wrapped_ofRange`: `AckRange::range` makes one that wraps of a start after the end.
-/
import Mathlib.Data.Set.Card
import RakNet.Reliability.Ack
import RakNet.Reliability.SendQueue

namespace RakNet

open Lib Lib.Wire

namespace SendQueue

/-- every key is a 24-bit number -/
def Keys24 (q : SendQueue) : Prop := ∀ (s : Nat) e, q.packets[s]? = some e → s < 2 ^ 24

theorem keys24_new : new.Keys24 := by
  intro s e h
  simp [new, withCapacity] at h

theorem Keys24.insert {q : SendQueue} (h : q.Keys24) (now : Nat) {seq : Nat} (packet : Bytes) (hs : seq < 2 ^ 24) :
    (q.insert now seq packet).2.Keys24 := by
  unfold SendQueue.insert
  split_ifs
  · exact h
  · exact NatMap.forall_insert (P := fun s _ => s < 2 ^ 24) hs h

/-! ## One by one -/

/-- `acknowledge` for every number of a list, and how many of the calls found their number -/
def acknowledgeEach (q : SendQueue) : List Nat → Nat × SendQueue
  | [] => (0, q)
  | seq :: rest =>
    let (answer, q') := q.acknowledge seq
    let (count, q'') := q'.acknowledgeEach rest
    ((if answer.isSome then 1 else 0) + count, q'')

/-- the 24-bit numbers from `start` up to `last`, through the wrap if there is one -/
def numbersFrom (start last : Nat) : List Nat :=
  (List.range ((last + 2 ^ 24 - start) % 2 ^ 24 + 1)).map fun i => (start + i) % 2 ^ 24

theorem removes_acknowledgeEach (q : SendQueue) (seqs : List Nat) :
    Removes q (q.acknowledgeEach seqs).2 (fun s => decide (s ∈ seqs)) ∧
      (q.acknowledgeEach seqs).1 + (q.acknowledgeEach seqs).2.len = q.len := by
  induction seqs generalizing q with
  | nil => exact ⟨Removes.refl q fun s => by simp, Nat.zero_add _⟩
  | cons seq rest ih =>
    obtain ⟨hrem, hcount⟩ := ih (q.acknowledge seq).2
    have hone := q.acknowledge_count seq
    simp only [acknowledgeEach]
    refine ⟨((q.removes_acknowledge seq).trans hrem).congr ?_, by omega⟩
    intro s _ _
    rw [Bool.eq_iff_iff, Bool.or_eq_true, beq_iff_eq, decide_eq_true_eq, decide_eq_true_eq, List.mem_cons]

theorem length_numbersFrom (start last : Nat) :
    (numbersFrom start last).length = (last + 2 ^ 24 - start) % 2 ^ 24 + 1 := by
  rw [numbersFrom, List.length_map, List.length_range]

theorem lt_numbersFrom {start last s : Nat} (h : s ∈ numbersFrom start last) : s < 2 ^ 24 := by
  obtain ⟨i, _, rfl⟩ := List.mem_map.1 h
  exact Nat.mod_lt _ (by norm_num)

/-- at most once round the circle -/
theorem nodup_numbersFrom (start last : Nat) : (numbersFrom start last).Nodup := by
  refine List.nodup_range.map_on ?_
  intro i hi j hj hij
  rw [List.mem_range] at hi hj
  omega

theorem mem_numbersFrom {start last s : Nat} (hs : s < 2 ^ 24) (hstart : start < 2 ^ 24) (hlast : last < 2 ^ 24) :
    s ∈ numbersFrom start last ↔ seqInRange s start last = true := by
  have hnumber : s ∈ numbersFrom start last ↔ (s + 2 ^ 24 - start) % 2 ^ 24 ≤ (last + 2 ^ 24 - start) % 2 ^ 24 := by
    rw [numbersFrom, List.mem_map]
    constructor
    · rintro ⟨i, hi, rfl⟩
      rw [List.mem_range] at hi
      omega
    · intro hle
      refine ⟨(s + 2 ^ 24 - start) % 2 ^ 24, List.mem_range.2 (by omega), ?_⟩
      omega
  rw [hnumber]
  unfold seqInRange
  by_cases hle : start ≤ last
  · rw [if_pos hle, Bool.and_eq_true, decide_eq_true_eq, decide_eq_true_eq]
    omega
  · rw [if_neg hle, Bool.or_eq_true, decide_eq_true_eq, decide_eq_true_eq]
    omega

/-- the ACK range and the sequence range are the same test -/
theorem seqInRange_eq_contains (start last : U24) {s : Nat} (hs : s < 2 ^ 24) :
    seqInRange s start.get last.get = (AckRange.range start last).contains (U24.new s) := by
  unfold seqInRange AckRange.contains
  rw [U24.get_new_of_lt hs]

/-- **Acknowledging a range is acknowledging its numbers.** For every queue of 24-bit keys and every start and end, the range
call leaves the queue, and returns the count, of the single calls from start up to end; and the entries it removes are those
whose key is in the sequence range, which is the test of `AckRange::contains`. -/
theorem acknowledgeRange_eq_each (q : SendQueue) (hkeys : q.Keys24) (start last : U24) :
    q.acknowledgeRange start.get last.get = q.acknowledgeEach (numbersFrom start.get last.get) ∧
    ∀ (s : Nat) e, q.packets[s]? = some e →
      ((q.acknowledgeRange start.get last.get).2.packets[s]? = none ↔ seqInRange s start.get last.get = true) ∧
      seqInRange s start.get last.get = (AckRange.range start last).contains (U24.new s) := by
  obtain ⟨hrange, hcount⟩ := q.removes_acknowledgeRange start.get last.get
  obtain ⟨heach, hcount'⟩ := q.removes_acknowledgeEach (numbersFrom start.get last.get)
  have hsame : (q.acknowledgeRange start.get last.get).2 = (q.acknowledgeEach (numbersFrom start.get last.get)).2 := by
    refine hrange.unique (heach.congr ?_)
    intro s e hs
    rw [Bool.eq_iff_iff, decide_eq_true_eq]
    exact mem_numbersFrom (hkeys s e hs) start.get_lt last.get_lt
  refine ⟨Prod.ext ?_ hsame, ?_⟩
  · rw [hsame] at hcount
    omega
  · intro s e hs
    refine ⟨?_, seqInRange_eq_contains start last (hkeys s e hs)⟩
    rw [hrange.entries, hs]
    cases seqInRange s start.get last.get <;> simp

/-- three packets around the wrap, and a range over it -/
theorem acknowledgeRange_eq_each_wrap :
    ((((new.insert 0 0xFFFFFF []).2.insert 0 0 []).2.insert 0 5 []).2.acknowledgeRange 0xFFFFFE 1) =
      ((((new.insert 0 0xFFFFFF []).2.insert 0 0 []).2.insert 0 5 []).2.acknowledgeEach (numbersFrom 0xFFFFFE 1)) := by
  have hkeys := ((keys24_new.insert 0 [] (show 0xFFFFFF < 2 ^ 24 by decide)).insert 0 [] (show 0 < 2 ^ 24 by decide)).insert
    0 [] (show 5 < 2 ^ 24 by decide)
  exact (acknowledgeRange_eq_each _ hkeys (U24.new 0xFFFFFE) (U24.new 1)).1

end SendQueue

/-! ## How many numbers a range has -/

namespace AckRange

open SendQueue

/-- `AckRange::range`: of a single number it makes a `Single` -/
def ofRange (start last : U24) : AckRange := if start = last then single start else range start last

/-- the start is after the end -/
def Wrapped : AckRange → Prop
  | single _ => False
  | range start last => last.get < start.get

theorem wrapped_ofRange (start last : U24) : (ofRange start last).Wrapped ↔ last.get < start.get := by
  unfold ofRange
  split_ifs with heq
  · subst heq
    exact iff_of_false id (lt_irrefl _)
  · exact Iff.rfl

theorem ncard_contains (start last : U24) :
    {s | (range start last).contains s = true}.ncard = (numbersFrom start.get last.get).length := by
  have hlist : {s | (range start last).contains s = true} =
      (((numbersFrom start.get last.get).map U24.new).toFinset : Set U24) := by
    ext s
    have hmem := mem_numbersFrom s.get_lt start.get_lt last.get_lt
    rw [seqInRange_eq_contains start last s.get_lt, U24.new_get] at hmem
    rw [Finset.mem_coe, List.mem_toFinset, Set.mem_ofPred_eq, ← hmem, List.mem_map]
    constructor
    · intro h
      exact ⟨s.get, h, U24.new_get s⟩
    · rintro ⟨n, hn, rfl⟩
      rwa [U24.get_new_of_lt (lt_numbersFrom hn)]
  have hnodup : ((numbersFrom start.get last.get).map U24.new).Nodup := by
    refine (nodup_numbersFrom start.get last.get).map_on ?_
    intro a ha b hb hab
    rw [← U24.get_new_of_lt (lt_numbersFrom ha), hab, U24.get_new_of_lt (lt_numbersFrom hb)]
  rw [hlist, Set.ncard_coe_finset, List.toFinset_card_of_nodup hnodup, List.length_map]

/-- of a range that wraps the difference is taken modulo 2^32, not modulo 2^24 -/
theorem count_range (start last : U24) :
    (range start last).count =
      if last.get < start.get then ((numbersFrom start.get last.get).length + (2 ^ 32 - 2 ^ 24)) % 2 ^ 32
      else (numbersFrom start.get last.get).length := by
  have hstart := start.get_lt
  have hlast := last.get_lt
  rw [count, wrappingAdd, wrappingSub, length_numbersFrom]
  split_ifs with hwrap
  · rw [Nat.mod_eq_of_lt (a := last.get + (2 ^ 32 - start.get)) (by omega)]
    omega
  · omega

theorem count_iff (r : AckRange) : r.count = {s | r.contains s = true}.ncard ↔ ¬ r.Wrapped := by
  cases r with
  | single s =>
    have hone : {x | (single s).contains x = true} = {s} := by
      ext x
      rw [Set.mem_ofPred_eq, contains, beq_iff_eq, Set.mem_singleton_iff, eq_comm]
    rw [hone, Set.ncard_singleton]
    exact iff_of_true rfl id
  | range start last =>
    rw [ncard_contains, count_range, Wrapped]
    split_ifs with hwrap
    · have hlength := length_numbersFrom start.get last.get
      exact iff_of_false (by omega) (not_not.2 hwrap)
    · exact iff_of_true rfl hwrap

/-- the range from 0xFFFFFF to 0 is two numbers -/
theorem count_wrap :
    {s | (ofRange (U24.new 0xFFFFFF) (U24.new 0)).contains s = true}.ncard = 2 ∧
      (ofRange (U24.new 0xFFFFFF) (U24.new 0)).count = 0xFF000002 := by
  have hrange : ofRange (U24.new 0xFFFFFF) (U24.new 0) = range (U24.new 0xFFFFFF) (U24.new 0) := rfl
  rw [hrange, ncard_contains]
  exact ⟨by decide, by decide⟩

end AckRange

end RakNet
